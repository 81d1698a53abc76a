import Mathlib.Data.List.Infix
import CrossShade.Substitution

/-!
Substitution is local. A character that occurs in no name of a table keeps what stands at its
sides apart: the names are replaced on each side as if the other were not there. Where names
are replaced as whole identifiers the character must not be one of an identifier.

* `replaceFrom_append_cons`: the scan for one word does not look across such a character.
* `Table.apply_append_cons_of_apart`: neither does a whole table of whose names none has it.
* `Table.mem_apply`: substitution brings in no characters but those of the replacements.
-/

namespace CrossShade.Text

/-- Occurrences at the character are let through as they are at the ends of the text. -/
structure EndsAt (accept : Option Char → Option Char → Bool) (c : Char) : Prop where
  start : ∀ after, accept (some c) after = accept none after
  stop : ∀ before, accept before (some c) = accept before none

section Scan

variable {accept : Option Char → Option Char → Bool} {word value : Text} {c : Char}

theorem prefix_append_cons_iff (absent : c ∉ word) {front back : Text} :
    word <+: front ++ c :: back ↔ word <+: front := by
  constructor
  · intro occurs
    rcases List.prefix_or_prefix_of_prefix occurs (List.prefix_append front _) with inside | across
    · exact inside
    · obtain ⟨more, rfl⟩ := across
      cases more with
      | nil => simp
      | cons d more =>
          obtain ⟨rfl, -⟩ :=
            List.cons_prefix_cons.mp ((List.prefix_append_right_inj front).mp occurs)
          simp at absent
  · exact fun inside => inside.trans (List.prefix_append front _)

theorem isPrefixOf_append_cons (absent : c ∉ word) (front back : Text) :
    word.isPrefixOf (front ++ c :: back) = word.isPrefixOf front := by
  rw [Bool.eq_iff_iff, List.isPrefixOf_iff_prefix, List.isPrefixOf_iff_prefix]
  exact prefix_append_cons_iff absent

theorem infix_append_cons_iff (absent : c ∉ word) {front back : Text} :
    word <:+: front ++ c :: back ↔ word <:+: front ∨ word <:+: back := by
  induction front with
  | nil =>
      have first := @prefix_append_cons_iff word c absent [] back
      rw [List.nil_append] at first ⊢
      rw [List.infix_cons_iff, first, List.prefix_nil, List.infix_nil]
  | cons d front ih =>
      have first := @prefix_append_cons_iff word c absent (d :: front) back
      rw [List.cons_append] at first ⊢
      rw [List.infix_cons_iff, List.infix_cons_iff, first, ih, or_assoc]

theorem replaceFrom_start (ends : EndsAt accept c) (text : Text) :
    replaceFrom accept word value (some c) 0 text = replaceFrom accept word value none 0 text := by
  cases text with
  | nil => rfl
  | cons d text => simp only [replaceFrom, ends.start]

/-- **The scan is local**: it does not look across a character that the word does not have. -/
theorem replaceFrom_append_cons (nonempty : word ≠ []) (absent : c ∉ word) (ends : EndsAt accept c)
    (back : Text) {front : Text} {before : Option Char} {skip : Nat}
    (inside : skip ≤ front.length) :
    replaceFrom accept word value before skip (front ++ c :: back) =
      replaceFrom accept word value before skip front ++
        c :: replaceFrom accept word value none 0 back := by
  induction front generalizing before skip with
  | nil =>
      obtain rfl : skip = 0 := by simpa using inside
      have noOccurrence : word.isPrefixOf (c :: back) = false := by
        have none := isPrefixOf_append_cons absent [] back
        rw [List.nil_append] at none
        rw [none]
        cases word with
        | nil => exact absurd rfl nonempty
        | cons d word => rfl
      simp [replaceFrom, noOccurrence, replaceFrom_start ends]
  | cons d front ih =>
      cases skip with
      | succ skip =>
          simp only [List.cons_append, replaceFrom]
          exact ih (by simpa using inside)
      | zero =>
          have same := isPrefixOf_append_cons absent (d :: front) back
          simp only [List.cons_append] at same
          simp only [List.cons_append, replaceFrom, same]
          split
          · next occurs =>
              have short := (List.isPrefixOf_iff_prefix.mp occurs).length_le
              have neighbour : accept before ((d :: (front ++ c :: back)).drop word.length).head? =
                  accept before ((d :: front).drop word.length).head? := by
                rw [← List.cons_append, List.drop_append_of_le_length short]
                cases left : (d :: front).drop word.length with
                | nil => simpa using ends.stop before
                | cons e left => rfl
              rw [neighbour, ih (by simp only [List.length_cons] at short; omega)]
              split <;> simp
          · rw [ih (Nat.zero_le _)]
            rfl

/-- Replacement brings in no characters but those of the value. -/
theorem mem_replaceFrom {before : Option Char} {skip : Nat} {text : Text}
    (mem : c ∈ replaceFrom accept word value before skip text) : c ∈ text ∨ c ∈ value := by
  induction text generalizing before skip with
  | nil => cases mem
  | cons d text ih =>
      have later : ∀ {before skip}, c ∈ replaceFrom accept word value before skip text →
          c ∈ d :: text ∨ c ∈ value := fun mem => (ih mem).imp_left (List.mem_cons_of_mem _)
      cases skip with
      | succ skip => exact later mem
      | zero =>
          rw [replaceFrom] at mem
          split at mem
          · next occurs =>
              rcases List.mem_append.mp mem with here | mem
              · split at here
                · exact Or.inr here
                · exact Or.inl ((List.isPrefixOf_iff_prefix.mp occurs).subset here)
              · exact later mem
          · rcases List.mem_cons.mp mem with rfl | mem
            · exact Or.inl List.mem_cons_self
            · exact later mem

end Scan

end CrossShade.Text

namespace CrossShade.Substitution

/-! ### One entry -/

/-- The scan that an entry makes in a mode. -/
def Mode.accepts : Mode → Option Char → Option Char → Bool
  | .substring, _, _ => true
  | .wholeWord, before, after => Text.standsApart before && Text.standsApart after

theorem Mode.accepts_endsAt (mode : Mode) {c : Char} (separate : Text.isIdentifierChar c = false) :
    Text.EndsAt mode.accepts c := by
  cases mode with
  | substring => exact ⟨fun _ => rfl, fun _ => rfl⟩
  | wholeWord =>
      have apart : Text.standsApart (some c) = Text.standsApart none := by
        simp [Text.standsApart, separate]
      exact ⟨fun after => by simp only [Mode.accepts, apart],
        fun before => by simp only [Mode.accepts, apart]⟩

theorem Entry.apply_eq (mode : Mode) (entry : Entry) (text : Text) :
    Entry.apply mode text entry =
      if entry.source.isEmpty then text
      else Text.replaceFrom mode.accepts entry.source entry.target none 0 text := by
  cases mode <;> rfl

/-- The name is made of the characters of identifiers. -/
def Entry.IsLexical (entry : Entry) : Prop :=
  ∀ c ∈ entry.source, Text.isIdentifierChar c = true

theorem Entry.apply_append_cons (mode : Mode) {entry : Entry} {c : Char} (absent : c ∉ entry.source)
    (separate : Text.isIdentifierChar c = false) (front back : Text) :
    Entry.apply mode (front ++ c :: back) entry =
      Entry.apply mode front entry ++ c :: Entry.apply mode back entry := by
  simp only [Entry.apply_eq]
  split
  · rfl
  · next nonempty =>
      exact Text.replaceFrom_append_cons (by simpa using nonempty) absent
        (mode.accepts_endsAt separate) back (Nat.zero_le _)

theorem Entry.mem_apply {mode : Mode} {entry : Entry} {text : Text} {c : Char}
    (mem : c ∈ Entry.apply mode text entry) : c ∈ text ∨ c ∈ entry.target := by
  rw [Entry.apply_eq] at mem
  split at mem
  · exact Or.inl mem
  · exact Text.mem_replaceFrom mem

/-! ### Whole tables -/

namespace Table

/-- Every name of the table is made of the characters of identifiers. -/
def IsLexical (table : Table) : Prop :=
  ∀ entry ∈ table.entries, entry.IsLexical

instance (table : Table) : Decidable table.IsLexical :=
  inferInstanceAs (Decidable (∀ entry ∈ table.entries, ∀ c ∈ entry.source,
    Text.isIdentifierChar c = true))

/-- The character belongs to no identifier and to no name of the table. -/
structure Apart (table : Table) (c : Char) : Prop where
  separate : Text.isIdentifierChar c = false
  absent : ∀ entry ∈ table.entries, c ∉ entry.source

section Local

variable {table : Table} {mode : Mode} {c : Char} {front back text : Text}

theorem IsLexical.apart (lexical : table.IsLexical) (separate : Text.isIdentifierChar c = false) :
    table.Apart c := by
  refine ⟨separate, fun entry listed mem => ?_⟩
  rw [lexical entry listed c mem] at separate
  cases separate

/-- **Substitution is local**: what stands at the sides of a character that belongs to no
identifier and to no name is substituted by itself. -/
theorem apply_append_cons_of_apart (apart : table.Apart c) (mode : Mode) (front back : Text) :
    table.apply mode (front ++ c :: back) =
      table.apply mode front ++ c :: table.apply mode back := by
  have run : ∀ (entries : List Entry), (∀ entry ∈ entries, c ∉ entry.source) →
      ∀ front back : Text, entries.foldl (Entry.apply mode) (front ++ c :: back) =
        entries.foldl (Entry.apply mode) front ++ c :: entries.foldl (Entry.apply mode) back := by
    intro entries
    induction entries with
    | nil => exact fun _ _ _ => rfl
    | cons entry entries ih =>
        intro absent front back
        simp only [List.foldl_cons]
        rw [entry.apply_append_cons mode (absent entry List.mem_cons_self) apart.separate]
        exact ih (fun other mem => absent other (List.mem_cons_of_mem _ mem)) _ _
  exact run table.entries apart.absent front back

theorem apply_append_cons (lexical : table.IsLexical) (mode : Mode)
    (separate : Text.isIdentifierChar c = false) (front back : Text) :
    table.apply mode (front ++ c :: back) =
      table.apply mode front ++ c :: table.apply mode back :=
  apply_append_cons_of_apart (lexical.apart separate) mode front back

theorem apply_nil (table : Table) (mode : Mode) : table.apply mode [] = [] := by
  have empty : ∀ entry, Entry.apply mode [] entry = [] := by
    intro entry
    rw [Entry.apply_eq]
    split <;> rfl
  rw [apply]
  induction table.entries with
  | nil => rfl
  | cons entry entries ih =>
      rw [List.foldl_cons, empty]
      exact ih

theorem apply_cons_of_apart (apart : table.Apart c) (mode : Mode) (back : Text) :
    table.apply mode (c :: back) = c :: table.apply mode back := by
  have split := apply_append_cons_of_apart apart mode [] back
  rwa [apply_nil] at split

theorem apply_cons (lexical : table.IsLexical) (mode : Mode)
    (separate : Text.isIdentifierChar c = false) (back : Text) :
    table.apply mode (c :: back) = c :: table.apply mode back :=
  apply_cons_of_apart (lexical.apart separate) mode back

/-- Two texts are substituted by themselves if the second does not go on with an identifier. -/
theorem apply_append (lexical : table.IsLexical) (mode : Mode) (front : Text) {back : Text}
    (separate : ∀ c ∈ back.head?, Text.isIdentifierChar c = false) :
    table.apply mode (front ++ back) = table.apply mode front ++ table.apply mode back := by
  cases back with
  | nil => simp [apply_nil]
  | cons c back =>
      rw [apply_append_cons lexical mode (separate c rfl), apply_cons lexical mode (separate c rfl)]

/-- Texts without identifiers and names stay as they are. -/
theorem apply_append_of_apart {gap : Text} (apart : ∀ c ∈ gap, table.Apart c) (mode : Mode)
    (back : Text) : table.apply mode (gap ++ back) = gap ++ table.apply mode back := by
  induction gap with
  | nil => rfl
  | cons c gap ih =>
      rw [List.cons_append, apply_cons_of_apart (apart c List.mem_cons_self),
        ih fun d mem => apart d (List.mem_cons_of_mem _ mem)]
      rfl

/-- Such a text keeps what stands at its sides apart. -/
theorem apply_append_apart {gap : Text} (nonempty : gap ≠ []) (apart : ∀ c ∈ gap, table.Apart c)
    (mode : Mode) (front back : Text) :
    table.apply mode (front ++ (gap ++ back)) =
      table.apply mode front ++ (gap ++ table.apply mode back) := by
  obtain ⟨c, more, rfl⟩ := List.exists_cons_of_ne_nil nonempty
  have behind : ∀ d ∈ more, table.Apart d := fun d mem => apart d (List.mem_cons_of_mem _ mem)
  rw [List.cons_append, apply_append_cons_of_apart (apart c List.mem_cons_self),
    apply_append_of_apart behind, List.cons_append]

theorem apply_append_of_separate (lexical : table.IsLexical) (mode : Mode) {gap : Text}
    (separate : ∀ c ∈ gap, Text.isIdentifierChar c = false) (back : Text) :
    table.apply mode (gap ++ back) = gap ++ table.apply mode back :=
  apply_append_of_apart (fun c mem => lexical.apart (separate c mem)) mode back

theorem mem_apply (mem : c ∈ table.apply mode text) :
    c ∈ text ∨ ∃ entry ∈ table.entries, c ∈ entry.target := by
  have run : ∀ (entries : List Entry) (text : Text), c ∈ entries.foldl (Entry.apply mode) text →
      c ∈ text ∨ ∃ entry ∈ entries, c ∈ entry.target := by
    intro entries
    induction entries with
    | nil => exact fun _ mem => Or.inl mem
    | cons entry entries ih =>
        intro text mem
        rcases ih _ mem with mem | ⟨other, listed, mem⟩
        · exact (Entry.mem_apply mem).imp_right fun mem => ⟨entry, List.mem_cons_self, mem⟩
        · exact Or.inr ⟨other, List.mem_cons_of_mem _ listed, mem⟩
  exact run table.entries text mem

end Local

end Table

end CrossShade.Substitution
