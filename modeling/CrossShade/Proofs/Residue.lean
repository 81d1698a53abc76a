import CrossShade.Proofs.Names
import CrossShade.Proofs.Translation

/-!
What substitution leaves of the names of a table. A replacement may come to stand between
characters with which it makes up a name again, and what is left around an empty one may close up
to a name. Where neither can happen, a table leaves none of its names in a text, wherever in its
words they stood.

* `Text.Seamless`: no occurrence of a word takes in a part of a value.
* `Text.Seamless.exists_place`: replacing by such a value makes up no occurrence of the word anew.
* `Table.IsThorough.not_infix_apply`: a table whose replacements are seamless leaves none of its
  names, if those that it erases stand alone.
* `glslToCg_leaves_no_name`: the table from GLSL to Cg is one, and a second run changes nothing.
-/

namespace CrossShade.Text

/-- Wherever the value stands, no occurrence of the word has a part in common with it: neither is
within the other, and no end of one begins the other. -/
@[mk_iff]
structure Seamless (word value : Text) : Prop where
  notWithin : ¬word <:+: value
  notAround : ¬value <:+: word
  tails : ∀ tail ∈ value.tails, tail <+: word → tail = []
  heads : ∀ head ∈ value.inits, head <:+ word → head = []

instance (word value : Text) : Decidable (Seamless word value) :=
  decidable_of_iff' _ (seamless_iff word value)

section Seams

variable {key word value text : Text}

/-- What is put in front of a text has no part in what occurs there. -/
theorem Seamless.infix_of_infix_append (seamless : Seamless key value) {back : Text}
    (occurs : key <:+: value ++ back) : key <:+: back := by
  rcases List.infix_append_iff.mp occurs with within | behind | ⟨first, second, rfl, ends, begins⟩
  · exact absurd within seamless.notWithin
  · exact behind
  · have nothing : first = [] :=
      seamless.tails first ((List.mem_tails first value).mpr ends) (List.prefix_append first second)
    rw [nothing, List.nil_append]
    exact begins.isInfix

/-- The end of a word at the start of a text with replacements stood there before. -/
theorem Seamless.prefix_of_prefix_replaceFrom (seamless : Seamless key value) {part : Text}
    (ends : part <:+ key) {before : Option Char}
    (begins : part <+: replaceFrom (fun _ _ => true) word value before 0 text) : part <+: text := by
  induction text generalizing part before with
  | nil => exact begins
  | cons c rest ih =>
      rw [replaceFrom] at begins
      split at begins
      · rw [if_pos rfl] at begins
        rcases List.prefix_or_prefix_of_prefix begins (List.prefix_append value _) with short | long
        · rw [seamless.heads part ((List.mem_inits part value).mpr short) ends]
          exact List.nil_prefix
        · exact absurd (long.isInfix.trans ends.isInfix) seamless.notAround
      · cases part with
        | nil => exact List.nil_prefix
        | cons d part =>
            obtain ⟨rfl, later⟩ := List.cons_prefix_cons.mp begins
            exact List.cons_prefix_cons.mpr ⟨rfl, ih ((List.suffix_cons d part).trans ends) later⟩

/-- Replacement makes up no occurrence of a word anew: where one begins in the result, one began in
the text and was not replaced. -/
theorem Seamless.exists_place (seamless : Seamless key value) {before : Option Char} {skip : Nat}
    (occurs : key <:+: replaceFrom (fun _ _ => true) word value before skip text) :
    ∃ place, place <:+ text ∧ key <+: place ∧ ¬word <+: place := by
  induction text generalizing before skip with
  | nil =>
      have nothing : key = [] := by
        cases skip <;> exact List.infix_nil.mp occurs
      exact absurd (nothing ▸ List.nil_infix) seamless.notWithin
  | cons c rest ih =>
      have later : ∀ {before skip},
          key <:+: replaceFrom (fun _ _ => true) word value before skip rest →
            ∃ place, place <:+ c :: rest ∧ key <+: place ∧ ¬word <+: place := by
        intro before skip occurs
        obtain ⟨place, ends, begins, kept⟩ := ih occurs
        exact ⟨place, ends.trans (List.suffix_cons c rest), begins, kept⟩
      cases skip with
      | succ skip => exact later occurs
      | zero =>
          by_cases found : word <+: c :: rest
          · rw [replaceFrom, if_pos (List.isPrefixOf_iff_prefix.mpr found), if_pos rfl] at occurs
            exact later (seamless.infix_of_infix_append occurs)
          · have begins : key <+: replaceFrom (fun _ _ => true) word value before 0 (c :: rest) →
                key <+: c :: rest := seamless.prefix_of_prefix_replaceFrom List.suffix_rfl
            rw [replaceFrom, if_neg (mt List.isPrefixOf_iff_prefix.mp found)] at occurs begins
            rcases List.infix_cons_iff.mp occurs with first | behind
            · exact ⟨c :: rest, List.suffix_rfl, begins first, found⟩
            · exact later behind

end Seams

end CrossShade.Text

namespace CrossShade.Substitution

/-! ### Tables -/

namespace Table

/-- What is put in place of a name makes up no name of the table with what stands around it. Nothing
is asked of the replacements that are empty. -/
def IsSeamless (table : Table) : Prop :=
  ∀ entry ∈ table.entries, entry.target ≠ [] →
    ∀ other ∈ table.entries, Text.Seamless other.source entry.target

instance (table : Table) : Decidable table.IsSeamless :=
  inferInstanceAs (Decidable (∀ entry ∈ table.entries, entry.target ≠ [] →
    ∀ other ∈ table.entries, Text.Seamless other.source entry.target))

/-- The table leaves nothing of its names: its replacements bring none back, and a name that it
erases goes as a whole. -/
structure IsThorough (table : Table) : Prop where
  lexical : table.IsLexical
  named : ∀ entry ∈ table.entries, entry.source ≠ []
  seamless : table.IsSeamless
  erases : ∀ entry ∈ table.entries, entry.target = [] → table.apply .substring entry.source = []

/-- The text has none of the names that the table erases. -/
def Spares (table : Table) (text : Text) : Prop :=
  ∀ entry ∈ table.entries, entry.target = [] → ¬entry.source <:+: text

end Table

section Runs

variable {table : Table} {entry key : Entry} {text : Text}

theorem Entry.not_infix_apply (seamless : Text.Seamless key.source entry.target)
    (absent : key = entry ∨ ¬key.source <:+: text) :
    ¬key.source <:+: Entry.apply .substring text entry := by
  intro occurs
  rw [Entry.apply, Text.replaceAll] at occurs
  split at occurs
  · next unnamed =>
      rcases absent with rfl | absent
      · exact seamless.notWithin (List.isEmpty_iff.mp unnamed ▸ List.nil_infix)
      · exact absent occurs
  · obtain ⟨place, ends, begins, kept⟩ := seamless.exists_place occurs
    rcases absent with rfl | absent
    · exact kept begins
    · exact absent (begins.isInfix.trans ends.isInfix)

/-- One entry: its own name is gone, and no name comes back. -/
theorem Table.IsSeamless.not_infix_apply (seamless : table.IsSeamless) (spares : table.Spares text)
    (listed : entry ∈ table.entries) (mem : key ∈ table.entries)
    (absent : key = entry ∨ ¬key.source <:+: text) :
    ¬key.source <:+: Entry.apply .substring text entry := by
  by_cases erased : entry.target = []
  · have untouched := spares entry listed erased
    rw [Entry.apply_of_absent untouched]
    rcases absent with rfl | absent
    · exact untouched
    · exact absent
  · exact Entry.not_infix_apply (seamless entry listed erased key mem) absent

/-- Entries one after another: their own names are gone, and no name comes back. -/
theorem Table.IsSeamless.not_infix_foldl (seamless : table.IsSeamless) {entries : List Entry}
    (listed : ∀ entry ∈ entries, entry ∈ table.entries) (spares : table.Spares text)
    (mem : key ∈ table.entries) (absent : key ∈ entries ∨ ¬key.source <:+: text) :
    ¬key.source <:+: entries.foldl (Entry.apply .substring) text := by
  induction entries generalizing text with
  | nil => exact absent.resolve_left List.not_mem_nil
  | cons entry entries ih =>
      have step : ∀ other ∈ table.entries, other = entry ∨ ¬other.source <:+: text →
          ¬other.source <:+: Entry.apply .substring text entry := fun other mem =>
        seamless.not_infix_apply spares (listed entry List.mem_cons_self) mem
      have stillSpares : table.Spares (Entry.apply .substring text entry) :=
        fun other mem erased => step other mem (Or.inr (spares other mem erased))
      refine ih (fun other mem => listed other (List.mem_cons_of_mem _ mem)) stillSpares ?_
      rcases absent with own | absent
      · rcases List.mem_cons.mp own with rfl | later
        · exact Or.inr (step key mem (Or.inl rfl))
        · exact Or.inl later
      · exact Or.inr (step key mem (Or.inr absent))

/-- **A thorough table leaves none of its names** in a text in which those that it erases stand
alone. -/
theorem Table.IsThorough.not_infix_apply (thorough : table.IsThorough) (mem : key ∈ table.entries)
    (alone : ∀ entry ∈ table.entries, entry.target = [] → Text.Alone entry.source text) :
    ¬key.source <:+: table.apply .substring text := by
  have name : ∀ word : Text, (∀ c ∈ word, Text.isIdentifierChar c = true) →
      (∀ entry ∈ table.entries, entry.target = [] → Text.Alone entry.source word) →
      ¬key.source <:+: table.apply .substring word := by
    intro word letters alone
    by_cases spares : table.Spares word
    · exact thorough.seamless.not_infix_foldl (fun _ mem => mem) spares mem (Or.inl mem)
    · -- A name that is erased stands in the word, so it is the word.
      simp only [Table.Spares, not_forall, not_not] at spares
      obtain ⟨entry, listed, erased, occurs⟩ := spares
      rw [← (alone entry listed erased).eq_of_occurs letters occurs,
        thorough.erases entry listed erased, List.infix_nil]
      exact thorough.named key mem
  induction text using Text.byNames with
  | name word letters => exact name word letters alone
  | apart word c back letters separate ih =>
      have absent := (thorough.lexical.apart separate).absent key mem
      rw [apply_append_cons thorough.lexical _ separate, Text.infix_append_cons_iff absent]
      rintro (front | behind)
      · exact name word letters (fun entry mem erased => (alone entry mem erased).left) front
      · exact ih (fun entry mem erased => (alone entry mem erased).right) behind

end Runs

/-! ### From GLSL to Cg -/

theorem glslToCg_isThorough : Table.glslToCg.IsThorough where
  lexical := glslToCg_isLexical
  named := by decide
  seamless := by decide +kernel
  erases := by decide +kernel

/-- **Nothing is left of the names of GLSL**, wherever in a text they stand, if its precisions stand
alone; and a second run changes nothing. -/
theorem glslToCg_leaves_no_name (text : Text)
    (alone : ∀ word ∈ ["lowp".toList, "mediump".toList, "highp".toList], Text.Alone word text) :
    (∀ entry ∈ Table.glslToCg.entries,
        ¬entry.source <:+: Table.glslToCg.apply .substring text) ∧
      Table.glslToCg.apply .substring (Table.glslToCg.apply .substring text) =
        Table.glslToCg.apply .substring text := by
  have erased : ∀ entry ∈ Table.glslToCg.entries, entry.target = [] →
      entry.source ∈ ["lowp".toList, "mediump".toList, "highp".toList] := by decide
  have none : ∀ entry ∈ Table.glslToCg.entries,
      ¬entry.source <:+: Table.glslToCg.apply .substring text := fun entry mem =>
    glslToCg_isThorough.not_infix_apply mem fun other listed empty =>
      alone other.source (erased other listed empty)
  exact ⟨none, foldl_apply_of_unchanged fun entry mem => Entry.apply_of_absent (none entry mem)⟩

/-- Names within longer ones, side by side and overlapping. -/
theorem glslToCg_leaves_no_name_sample :
    let text := "lowp mixer_vec3vec2=mmixix(vvec4ec4)".toList
    (∀ word ∈ ["lowp".toList, "mediump".toList, "highp".toList], Text.Alone word text) ∧
      Table.glslToCg.apply .substring text = " lerper_float3float2=mlerpix(vfloat4ec4)".toList ∧
      (∀ entry ∈ Table.glslToCg.entries,
        ¬entry.source <:+: Table.glslToCg.apply .substring text) ∧
      Table.glslToCg.apply .substring (Table.glslToCg.apply .substring text) =
        Table.glslToCg.apply .substring text := by
  intro text
  have alone : ∀ word ∈ ["lowp".toList, "mediump".toList, "highp".toList],
      Text.Alone word text := by decide +kernel
  exact ⟨alone, by decide +kernel, glslToCg_leaves_no_name text alone⟩

end CrossShade.Substitution
