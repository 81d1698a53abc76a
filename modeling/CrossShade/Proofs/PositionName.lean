import CrossShade.Proofs.Names
import CrossShade.Proofs.Translation

/-!
The name of the position. A vertex shader declares its position under the target of the first
entry for `gl_Position`, while its body holds what the whole table makes of that name. Entries
before that one may take the name apart, and entries behind it may replace the target again.

* `Entry.apply_of_not_touches`: an entry that does not touch a name leaves it.
* `position_agrees`: the two names are the same exactly if the later entries leave the target, and
  every conversion then declares the name that stands in its source for the position.
* `position_differs`: a table for which they are not.
-/

namespace CrossShade.Substitution

/-! ### Entries and single names -/

namespace Entry

variable {mode : Mode} {entry : Entry} {text : Text}

/-- The entry finds its name in the text, or in place of the whole text where only whole
identifiers are replaced. -/
def Touches (mode : Mode) (text : Text) (entry : Entry) : Prop :=
  entry.source ≠ [] ∧
    match mode with
    | .substring => entry.source <:+: text
    | .wholeWord => entry.source = text

instance (mode : Mode) (text : Text) (entry : Entry) : Decidable (entry.Touches mode text) :=
  match mode with
  | .substring => inferInstanceAs (Decidable (entry.source ≠ [] ∧ entry.source <:+: text))
  | .wholeWord => inferInstanceAs (Decidable (entry.source ≠ [] ∧ entry.source = text))

theorem ne_of_not_touches (nonempty : text ≠ []) (untouched : ¬entry.Touches mode text) :
    entry.source ≠ text := by
  rintro rfl
  refine untouched ⟨nonempty, ?_⟩
  cases mode with
  | substring => exact List.infix_rfl
  | wholeWord => rfl

/-- An entry that does not touch an identifier leaves it. -/
theorem apply_of_not_touches (identifier : ∀ c ∈ text, Text.isIdentifierChar c = true)
    (untouched : ¬entry.Touches mode text) : Entry.apply mode text entry = text := by
  rw [apply_eq]
  by_cases empty : entry.source = []
  · simp [empty]
  · rw [if_neg (by simpa using empty)]
    cases mode with
    | substring =>
        exact Text.replaceFrom_of_not_infix fun occurs => untouched ⟨empty, occurs⟩
    | wholeWord =>
        exact replaceFrom_identifier empty identifier fun same => untouched ⟨empty, same⟩

end Entry

/-- What a table makes of a name whose entry no earlier one has a part in: the target, as the later
entries leave it. -/
theorem Table.apply_of_entries_eq {table : Table} {mode : Mode} {before after : List Entry}
    {entry : Entry} (listed : table.entries = before ++ entry :: after)
    (nonempty : entry.source ≠ []) (identifier : entry.IsLexical)
    (untouched : ∀ other ∈ before, ¬other.Touches mode entry.source) :
    table.apply mode entry.source = (Table.mk after).apply mode entry.target := by
  simp only [Table.apply, listed, List.foldl_append, List.foldl_cons]
  have stays : before.foldl (Entry.apply mode) entry.source = entry.source :=
    foldl_apply_of_unchanged fun other mem =>
      Entry.apply_of_not_touches identifier (untouched other mem)
  rw [stays, Entry.apply_source nonempty]

theorem Table.get?_of_entries_eq {table : Table} {before after : List Entry} {entry : Entry}
    (listed : table.entries = before ++ entry :: after)
    (first : ∀ other ∈ before, other.source ≠ entry.source) :
    table.get? entry.source = some entry.target := by
  have none : before.find? (·.source == entry.source) = none := by simpa using first
  simp [Table.get?, listed, none]

/-- A name of its own among other text is substituted by itself. -/
theorem Table.apply_apart {table : Table} (lexical : table.IsLexical) (mode : Mode)
    {front name back : Text} (endsFront : ∀ c ∈ front.getLast?, Text.isIdentifierChar c = false)
    (startsBack : ∀ c ∈ back.head?, Text.isIdentifierChar c = false) :
    table.apply mode (front ++ name ++ back) =
      table.apply mode front ++ table.apply mode name ++ table.apply mode back := by
  rw [apply_append lexical mode _ startsBack]
  congr 1
  rcases List.eq_nil_or_concat front with rfl | ⟨front, c, rfl⟩
  · rw [apply_nil, List.nil_append, List.nil_append]
  · have separate : Text.isIdentifierChar c = false := endsFront c (by simp)
    have ended := apply_append_cons lexical mode separate front []
    rw [apply_nil] at ended
    rw [List.concat_eq_append, ended, List.append_assoc, List.singleton_append,
      apply_append_cons lexical mode separate, List.append_assoc, List.singleton_append]

end CrossShade.Substitution

namespace CrossShade

open Substitution

/-! ### The declared name -/

theorem Listing.infix_paramLines (indent : Text) {param : Text} {params : List Text}
    (listed : param ∈ params) : param <:+: Listing.paramLines indent params := by
  induction params with
  | nil => cases listed
  | cons first params ih =>
      cases params with
      | nil =>
          obtain rfl : param = first := by simpa using listed
          exact ⟨indent, ['\n'], rfl⟩
      | cons second params =>
          rcases List.mem_cons.mp listed with rfl | later
          · exact ⟨indent, ",\n".toList ++ paramLines indent (second :: params), by
              simp [paramLines]⟩
          · refine (ih later).trans (List.IsSuffix.isInfix ?_)
            exact ⟨indent ++ first ++ ",\n".toList, by simp [paramLines]⟩

/-- Every vertex shader that is converted declares its position. -/
theorem position_declared {settings : Settings} {source text : Text}
    (converted : Conversion.convert settings .vertex source = .ok text) :
    "float4 out ".toList ++ settings.positionOutput ++ " : POSITION".toList <:+: text := by
  simp only [Conversion.convert, Listing.generate, bind_eq_ok_iff] at converted
  obtain ⟨program, -, main, -, returned⟩ := converted
  have text_eq := Except.ok.inj returned
  have listed : "float4 out ".toList ++ settings.positionOutput ++ " : POSITION".toList ∈
      Listing.params settings .vertex program := by
    simp [Listing.params, Listing.positionParams, Stage.varyingDirection]
  refine (Listing.infix_paramLines settings.indent listed).trans ?_
  rw [← text_eq]
  exact ⟨Listing.banner .vertex ++ program.helpers.flatMap (Listing.helper settings)
      ++ (Stage.vertex.entryType ++ " main(\n".toList),
    settings.indent ++ ")\n".toList ++ Listing.block settings main.body, by simp [Listing.entry]⟩

/-! ### The two names -/

section Agreement

open Settings (positionName)

theorem positionName_identifier : ∀ c ∈ positionName, Text.isIdentifierChar c = true := by
  decide

variable {settings : Settings} {before after : List Entry} {target : Text}

theorem positionOutput_eq
    (listed : settings.substitutions.entries = before ++ ⟨positionName, target⟩ :: after)
    (nonempty : target ≠ []) (first : ∀ entry ∈ before, entry.source ≠ positionName) :
    settings.positionOutput = target := by
  have found : settings.substitutions.get? positionName = some target :=
    Table.get?_of_entries_eq listed first
  have filled : target.isEmpty = false := by simpa using nonempty
  simp [Settings.positionOutput, found, filled]

end Agreement

/-- **When the declared position is the one in the body.** Where no earlier entry touches the name
of the position, the two agree exactly if the later entries leave its target as it is. In every
conversion a position that stands by itself is then replaced by the name that is declared. -/
theorem position_agrees (settings : Settings) (before after : List Entry) (target : Text)
    (listed : settings.substitutions.entries = before ++ ⟨Settings.positionName, target⟩ :: after)
    (nonempty : target ≠ [])
    (untouched : ∀ entry ∈ before, ¬entry.Touches settings.mode Settings.positionName) :
    let change := settings.substitutions.apply settings.mode
    (change Settings.positionName = settings.positionOutput ↔
        (Table.mk after).apply settings.mode target = target) ∧
      (change Settings.positionName = settings.positionOutput → settings.substitutions.IsLexical →
        ∀ source text front back, Conversion.convert settings .vertex source = .ok text →
          Source.dropMark source = front ++ Settings.positionName ++ back →
          (∀ c ∈ front.getLast?, Text.isIdentifierChar c = false) →
          (∀ c ∈ back.head?, Text.isIdentifierChar c = false) →
          change (Source.dropMark source) = change front ++ target ++ change back ∧
            "float4 out ".toList ++ target ++ " : POSITION".toList <:+: text) := by
  intro change
  have named : Settings.positionName ≠ [] := by decide
  have output_eq : settings.positionOutput = target :=
    positionOutput_eq listed nonempty fun entry mem =>
      Entry.ne_of_not_touches named (untouched entry mem)
  have applied : change Settings.positionName = (Table.mk after).apply settings.mode target :=
    Table.apply_of_entries_eq listed named positionName_identifier untouched
  rw [output_eq]
  refine ⟨by rw [applied], ?_⟩
  intro agrees lexical source text front back converted stands endsFront startsBack
  constructor
  · rw [stands, ← agrees]
    exact Table.apply_apart lexical settings.mode endsFront startsBack
  · rw [← output_eq]
    exact position_declared converted

theorem position_agrees_standard :
    let change := Settings.standard.substitutions.apply .substring
    let front := "void main()\x7b".toList
    let back := "=a;\x7d".toList
    let source := front ++ Settings.positionName ++ back
    change Settings.positionName = "v_position".toList ∧
      ∃ text, Conversion.convert .standard .vertex source = .ok text ∧
        change (Source.dropMark source) = change front ++ "v_position".toList ++ change back ∧
          "float4 out ".toList ++ "v_position".toList ++ " : POSITION".toList <:+: text := by
  intro change front back source
  obtain ⟨agrees_iff, converts⟩ := position_agrees .standard (Table.glslToCg.entries.take 9)
    (Table.glslToCg.entries.drop 10) "v_position".toList (by decide) (by decide) (by decide)
  have agrees := agrees_iff.mpr (by decide)
  refine ⟨agrees, ?_⟩
  have isOk : (Conversion.convert .standard .vertex source).isOk = true := by decide +kernel
  cases converted : Conversion.convert .standard .vertex source with
  | error fault => simp [converted, Except.isOk, Except.toBool] at isOk
  | ok text =>
      have opens : Text.isIdentifierChar '\x7b' = false := by decide
      have assigns : Text.isIdentifierChar '=' = false := by decide
      exact ⟨text, rfl, converts agrees glslToCg_isLexical source text front back converted rfl
        (by simp [front, opens]) (by simp [back, assigns])⟩

/-- A table that replaces the name of the position twice. -/
theorem position_differs :
    let table := Table.ofPairs
      [("gl_Position".toList, "pos".toList), ("pos".toList, "o_pos".toList)]
    let settings := { Settings.standard with substitutions := table }
    table.get? Settings.positionName = some "pos".toList ∧
      settings.positionOutput = "pos".toList ∧
        ∀ mode ∈ [Mode.substring, Mode.wholeWord],
          table.apply mode Settings.positionName = "o_pos".toList := by
  decide

end CrossShade
