import Mathlib.Data.List.Nodup
import CrossShade.Proofs.Names

/-!
Tables whose order does not matter. Where whole identifiers are replaced, an entry changes nothing
that another one has put in, as long as no replacement has a name of the table among its names. Each
name of a text is then looked up once, and with one entry for each name it is all the same in which
order the entries stand.

* `Table.IsSettled.apply_eq_lookup`: such a table replaces all names of a text at one stroke.
* `apply_wholeWord_settled`: applying it again changes nothing, and neither does rearranging it.
-/

namespace CrossShade.Text

/-- The names of a text: its maximal runs of identifier characters. -/
def names (text : Text) : List Text :=
  (pieces text).filter (·.all isIdentifierChar)

theorem mem_names {name text : Text} (mem : name ∈ names text) :
    name ≠ [] ∧ ∀ c ∈ name, isIdentifierChar c = true := by
  obtain ⟨listed, letters⟩ := List.mem_filter.mp mem
  exact ⟨List.ne_nil_of_mem_splitBy listed, List.all_eq_true.mp letters⟩

/-- A change that leaves the names of a text leaves the text. -/
theorem mapNames_eq_self {change : Text → Text} {text : Text}
    (keeps : ∀ name ∈ names text, change name = name) : mapNames change text = text := by
  have each : ∀ piece ∈ pieces text,
      (if piece.all isIdentifierChar then change piece else piece) = piece := by
    intro piece listed
    split
    · next letters => exact keeps piece (List.mem_filter.mpr ⟨listed, letters⟩)
    · rfl
  calc mapNames change text = (pieces text).flatMap id := List.flatMap_congr each
    _ = text := by rw [List.flatMap_id, pieces, List.flatten_splitBy]

end CrossShade.Text

namespace CrossShade.Substitution

/-- An entry whose name is none of the text's names leaves the text. -/
theorem Entry.apply_wholeWord_of_notMem {entry : Entry} (lexical : entry.IsLexical) {text : Text}
    (absent : entry.source ∉ Text.names text) : Entry.apply .wholeWord text entry = text := by
  have alone : (Table.mk [entry]).IsLexical := List.forall_mem_singleton.mpr lexical
  have byName : Entry.apply .wholeWord text entry =
      Text.mapNames (fun name => Entry.apply .wholeWord name entry) text :=
    Table.apply_eq_mapNames alone .wholeWord text
  rw [byName]
  refine Text.mapNames_eq_self fun name mem => ?_
  obtain ⟨nonempty, letters⟩ := Text.mem_names mem
  rw [Entry.apply_wholeWord_name nonempty letters, if_neg]
  rintro rfl
  exact absent mem

namespace Table

/-- Every name has one entry and is made of identifier characters, and no replacement has a name of
the table among its names. -/
structure IsSettled (table : Table) : Prop where
  lexical : table.IsLexical
  named : ∀ entry ∈ table.entries, entry.source ≠ []
  distinct : (table.entries.map Entry.source).Nodup
  fresh : ∀ entry ∈ table.entries, ∀ other ∈ table.entries,
    other.source ∉ Text.names entry.target

theorem mem_of_get? {table : Table} {source target : Text}
    (found : table.get? source = some target) : ⟨source, target⟩ ∈ table.entries := by
  obtain ⟨⟨_, _⟩, eq, rfl⟩ := Option.map_eq_some_iff.mp found
  obtain rfl : _ = source := by simpa using List.find?_some eq
  exact List.mem_of_find?_eq_some eq

namespace IsSettled

variable {table other : Table}

/-- With one entry for each name, looking a name up is finding its entry. -/
theorem get?_eq_some_iff (settled : table.IsSettled) {source target : Text} :
    table.get? source = some target ↔ ⟨source, target⟩ ∈ table.entries := by
  refine ⟨mem_of_get?, fun listed => ?_⟩
  cases found : table.get? source with
  | none =>
      have missed := List.find?_eq_none.mp (Option.map_eq_none_iff.mp found) _ listed
      simp at missed
  | some value =>
      have same := List.inj_on_of_nodup_map settled.distinct (mem_of_get? found) listed rfl
      rw [Entry.mk.inj same |>.2]

theorem of_perm (settled : table.IsSettled) (perm : other.entries.Perm table.entries) :
    other.IsSettled where
  lexical entry mem := settled.lexical entry (perm.subset mem)
  named entry mem := settled.named entry (perm.subset mem)
  distinct := (perm.map Entry.source).nodup_iff.mpr settled.distinct
  fresh entry mem second listed := settled.fresh entry (perm.subset mem) second (perm.subset listed)

theorem get?_of_perm (settled : table.IsSettled) (perm : other.entries.Perm table.entries)
    (source : Text) : other.get? source = table.get? source := by
  refine Option.ext fun target => ?_
  rw [(settled.of_perm perm).get?_eq_some_iff, settled.get?_eq_some_iff, perm.mem_iff]

/-- No entry changes what one of them puts in. -/
theorem apply_target_entry (settled : table.IsSettled) {entry second : Entry}
    (mem : entry ∈ table.entries) (listed : second ∈ table.entries) :
    Entry.apply .wholeWord entry.target second = entry.target :=
  Entry.apply_wholeWord_of_notMem (settled.lexical second listed)
    (settled.fresh entry mem second listed)

theorem apply_name (settled : table.IsSettled) {name : Text} (nonempty : name ≠ [])
    (letters : ∀ c ∈ name, Text.isIdentifierChar c = true) :
    table.apply .wholeWord name = (table.get? name).getD name := by
  refine foldl_apply_of_stable settled.named
    (fun entry mem second listed => settled.apply_target_entry mem listed)
    fun entry mem differs => ?_
  rw [Entry.apply_wholeWord_name nonempty letters, if_neg (Ne.symm differs)]

/-- **All names are replaced at one stroke**, each by what the table has for it. -/
theorem apply_eq_lookup (settled : table.IsSettled) (text : Text) :
    table.apply .wholeWord text =
      Text.mapNames (fun name => (table.get? name).getD name) text := by
  rw [apply_eq_mapNames settled.lexical]
  exact Text.mapNames_congr text fun name nonempty letters => settled.apply_name nonempty letters

/-- What has become of a name stays as it is. -/
theorem apply_apply_name (settled : table.IsSettled) {name : Text}
    (letters : ∀ c ∈ name, Text.isIdentifierChar c = true) :
    table.apply .wholeWord (table.apply .wholeWord name) = table.apply .wholeWord name := by
  by_cases empty : name = []
  · rw [empty, apply_nil, apply_nil]
  · have once := settled.apply_name empty letters
    cases found : table.get? name with
    | none =>
        rw [found, Option.getD_none] at once
        rw [once, once]
    | some target =>
        rw [found, Option.getD_some] at once
        rw [once]
        exact foldl_apply_of_unchanged fun second listed =>
          settled.apply_target_entry (mem_of_get? found) listed

end IsSettled

end Table

/-- **Replacing whole identifiers twice is replacing them once, in any order of the entries**, if
the names of the table are distinct and no replacement has one of them among its names. -/
theorem apply_wholeWord_settled (table : Table) (settled : table.IsSettled) (text : Text) :
    table.apply .wholeWord (table.apply .wholeWord text) = table.apply .wholeWord text ∧
      ∀ other : Table, other.entries.Perm table.entries →
        other.apply .wholeWord text = table.apply .wholeWord text := by
  refine ⟨?_, fun other perm => ?_⟩
  · induction text using Text.byNames with
    | name word letters => exact settled.apply_apply_name letters
    | apart word c back letters separate ih =>
        simp only [Table.apply_append_cons settled.lexical _ separate, ih,
          settled.apply_apply_name letters]
  · rw [settled.apply_eq_lookup, (settled.of_perm perm).apply_eq_lookup]
    simp only [settled.get?_of_perm perm]

/-- Replacements that are empty, that have names of the table inside longer names, and that stand
next to each other in the text. -/
theorem apply_wholeWord_settled_sample :
    let table := Table.ofPairs [("mix".toList, "mixed vec4".toList),
      ("vec".toList, "é mix_vec".toList), ("lowp".toList, [])]
    let text := "vec mix(lowp,mix)é_vec;vec".toList
    table.IsSettled ∧
      table.apply .wholeWord text =
        "é mix_vec mixed vec4(,mixed vec4)é_vec;é mix_vec".toList ∧
      table.apply .wholeWord (table.apply .wholeWord text) = table.apply .wholeWord text ∧
      (Table.mk table.entries.reverse).apply .wholeWord text = table.apply .wholeWord text := by
  intro table text
  have settled : table.IsSettled :=
    ⟨by decide, by decide, by decide, by decide +kernel⟩
  obtain ⟨again, rearranged⟩ := apply_wholeWord_settled table settled text
  exact ⟨settled, by decide +kernel, again, rearranged _ (List.reverse_perm _)⟩

end CrossShade.Substitution
