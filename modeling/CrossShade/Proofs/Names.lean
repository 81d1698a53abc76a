import Mathlib.Data.List.SplitBy
import CrossShade.Proofs.Replacement

/-!
Names in a text: its maximal runs of identifier characters. What stands between them keeps them
apart, so a table whose own names are made of identifier characters sees each of them by itself.

* `Text.byNames`: induction over the names of a text, from left to right.
* `Table.apply_eq_mapNames`: in either mode a table is applied to each name by itself.
* `apply_wholeWord_by_name`: where whole identifiers are replaced, an entry replaces the names that
  are equal to its own and no others.
* `apply_substring_eq_wholeWord`: where a text has the names of a table as whole identifiers only,
  the two modes come to the same.
-/

namespace CrossShade.Text

/-! ### The names of a text -/

/-- Whether two neighbours belong to one identifier. -/
def joins (c d : Char) : Bool :=
  isIdentifierChar c && isIdentifierChar d

/-- A text taken apart: its maximal runs of identifier characters, and every other character by
itself. -/
def pieces (text : Text) : List Text :=
  text.splitBy joins

/-- The text with a change made to each of its names. -/
def mapNames (change : Text → Text) (text : Text) : Text :=
  (pieces text).flatMap fun piece => if piece.all isIdentifierChar then change piece else piece

section Names

variable {change other : Text → Text} {word front back : Text} {c : Char}

/-- Induction over the names of a text. It is one name, which may be empty, or has a name and then a
character that belongs to none in front of another text. -/
@[elab_as_elim]
theorem byNames {motive : Text → Prop}
    (name : ∀ word : Text, (∀ c ∈ word, isIdentifierChar c = true) → motive word)
    (apart : ∀ (word : Text) (c : Char) (back : Text), (∀ d ∈ word, isIdentifierChar d = true) →
      isIdentifierChar c = false → motive back → motive (word ++ c :: back))
    (text : Text) : motive text := by
  -- The word is the part of a name that has been passed already.
  have run : ∀ text word : Text, (∀ c ∈ word, isIdentifierChar c = true) →
      motive (word ++ text) := by
    intro text
    induction text with
    | nil =>
        intro word letters
        rw [List.append_nil]
        exact name word letters
    | cons c back ih =>
        intro word letters
        by_cases letter : isIdentifierChar c = true
        · have longer := ih (word ++ [c]) (by simpa [or_imp, forall_and, letter] using letters)
          rwa [List.append_assoc] at longer
        · exact apart word c back letters (by simpa using letter) (ih [] (by simp))
  exact run text [] (by simp)

theorem pieces_append_cons (separate : isIdentifierChar c = false) (front back : Text) :
    pieces (front ++ c :: back) = pieces front ++ [c] :: pieces back := by
  have here : pieces (c :: back) = [c] :: pieces back :=
    List.splitBy_append (l := [c]) (by simp [joins, separate])
  rw [← here]
  exact List.splitBy_append_cons back (by simp [joins, separate])

theorem pieces_name (nonempty : word ≠ []) (letters : ∀ c ∈ word, isIdentifierChar c = true) :
    pieces word = [word] := by
  refine List.splitBy_of_isChain nonempty (List.Pairwise.isChain ?_)
  refine List.pairwise_of_forall_mem_list fun c first d second => ?_
  rw [joins, letters c first, letters d second, Bool.and_self]

theorem mapNames_append_cons (separate : isIdentifierChar c = false) (front back : Text) :
    mapNames change (front ++ c :: back) = mapNames change front ++ c :: mapNames change back := by
  simp [mapNames, pieces_append_cons separate, separate]

/-- A change that leaves the empty text may be made to an empty name. -/
theorem mapNames_name (keeps : change [] = []) (letters : ∀ c ∈ word, isIdentifierChar c = true) :
    mapNames change word = change word := by
  by_cases empty : word = []
  · rw [empty, keeps]
    rfl
  · rw [mapNames, pieces_name empty letters, List.flatMap_singleton,
      if_pos (List.all_eq_true.mpr letters)]

/-- Only what a change makes of names counts, and no name is empty. -/
theorem mapNames_congr (text : Text)
    (same : ∀ word, word ≠ [] → (∀ c ∈ word, isIdentifierChar c = true) →
      change word = other word) : mapNames change text = mapNames other text := by
  refine List.flatMap_congr fun piece listed => ?_
  split
  · next whole =>
      exact same piece (List.ne_nil_of_mem_splitBy listed) (List.all_eq_true.mp whole)
  · rfl

end Names

/-! ### Words that stand alone -/

/-- Every occurrence of the word in the text stands by itself: at its sides are the ends of the text
or characters that belong to no identifier. -/
def Alone (word text : Text) : Prop :=
  ∀ front back, text = front ++ word ++ back →
    standsApart front.getLast? = true ∧ standsApart back.head? = true

section Alone

variable {word text front back : Text} {c : Char}

theorem alone_iff :
    Alone word text ↔ ∀ place ∈ List.range (text.length + 1), word <+: text.drop place →
      standsApart (text.take place).getLast? = true ∧
        standsApart (text.drop (place + word.length)).head? = true := by
  constructor
  · rintro alone place - ⟨back, eq⟩
    have behind : text.drop (place + word.length) = back := by
      rw [← List.drop_drop, ← eq, List.drop_left]
    rw [behind]
    refine alone _ back ?_
    rw [List.append_assoc, eq, List.take_append_drop]
  · intro alone front back eq
    subst eq
    have within : front.length ∈ List.range ((front ++ word ++ back).length + 1) := by
      simp only [List.length_append, List.mem_range]
      omega
    have sides := alone front.length within (by simp)
    simpa [← List.drop_drop] using sides

instance (word text : Text) : Decidable (Alone word text) :=
  decidable_of_iff' _ alone_iff

/-- A word that stands alone in a name is that name. -/
theorem Alone.eq_of_occurs (alone : Alone word text)
    (letters : ∀ c ∈ text, isIdentifierChar c = true) (occurs : word <:+: text) : word = text := by
  obtain ⟨front, back, rfl⟩ := occurs
  obtain ⟨start, stop⟩ := alone front back rfl
  have noFront : front = [] := by
    rcases List.eq_nil_or_concat front with empty | ⟨front, c, rfl⟩
    · exact empty
    · have letter := letters c (by simp)
      simp [standsApart, letter] at start
  have noBack : back = [] := by
    cases back with
    | nil => rfl
    | cons c back =>
        have letter := letters c (by simp)
        simp [standsApart, letter] at stop
  rw [noFront, noBack, List.nil_append, List.append_nil]

theorem Alone.left (alone : Alone word (front ++ c :: back)) : Alone word front := by
  rintro before after rfl
  obtain ⟨start, stop⟩ := alone before (after ++ c :: back) (by simp)
  refine ⟨start, ?_⟩
  cases after with
  | nil => rfl
  | cons d after => exact stop

theorem Alone.right (alone : Alone word (front ++ c :: back)) : Alone word back := by
  rintro before after rfl
  obtain ⟨start, stop⟩ := alone (front ++ c :: before) after (by simp)
  refine ⟨?_, stop⟩
  rcases List.eq_nil_or_concat before with rfl | ⟨before, d, rfl⟩
  · rfl
  · simpa [List.getLast?_append, List.getLast?_cons] using start

end Alone

/-! ### One word -/

section Scan

variable {accept : Option Char → Option Char → Bool} {word value text : Text} {c : Char}

theorem replaceFrom_skip {before : Option Char} {skip : Nat} (short : text.length ≤ skip) :
    replaceFrom accept word value before skip text = [] := by
  induction text generalizing before skip with
  | nil => cases skip <;> rfl
  | cons c text ih =>
      cases skip with
      | zero => simp at short
      | succ skip => exact ih (by simpa using short)

/-- A word that is the whole text is replaced by the value. -/
theorem replaceFrom_self (nonempty : word ≠ []) (accepted : accept none none = true) :
    replaceFrom accept word value none 0 word = value := by
  cases word with
  | nil => exact absurd rfl nonempty
  | cons c word =>
      simp [replaceFrom, accepted, replaceFrom_skip]

theorem replaceFrom_of_not_infix {before : Option Char} (absent : ¬word <:+: text) :
    replaceFrom accept word value before 0 text = text := by
  induction text generalizing before with
  | nil => rfl
  | cons c text ih =>
      have noOccurrence : ¬word.isPrefixOf (c :: text) = true := by
        rw [List.isPrefixOf_iff_prefix]
        exact fun occurs => absent occurs.isInfix
      have later : ¬word <:+: text := fun occurs =>
        absent (occurs.trans (List.suffix_cons c text).isInfix)
      rw [replaceFrom, if_neg noOccurrence, ih later]

/-- An occurrence that is not let through stays. -/
theorem append_drop_of_prefix (nonempty : word ≠ []) (occurs : word <+: c :: text) :
    word ++ text.drop (word.length - 1) = c :: text := by
  obtain ⟨rest, joined⟩ := occurs
  cases word with
  | nil => exact absurd rfl nonempty
  | cons d word =>
      obtain ⟨rfl, rfl⟩ := List.cons.inj joined
      simp

end Scan

end CrossShade.Text

namespace CrossShade.Substitution

/-! ### One entry and one name -/

section Whole

variable {word value text : Text}

/-- Behind a character of an identifier nothing in the identifier is a whole word. -/
theorem replaceFrom_inside (value : Text) (nonempty : word ≠ [])
    (identifier : ∀ c ∈ text, Text.isIdentifierChar c = true) {d : Char}
    (joined : Text.isIdentifierChar d = true) (skip : Nat) :
    Text.replaceFrom Mode.wholeWord.accepts word value (some d) skip text = text.drop skip := by
  induction text generalizing d skip with
  | nil => cases skip <;> rfl
  | cons c text ih =>
      have next := ih (fun e mem => identifier e (List.mem_cons_of_mem c mem))
        (identifier c List.mem_cons_self)
      cases skip with
      | succ skip => exact next skip
      | zero =>
          rw [Text.replaceFrom]
          split
          · next occurs =>
              have refused : Mode.wholeWord.accepts (some d)
                  ((c :: text).drop word.length).head? = false := by
                simp [Mode.accepts, Text.standsApart, joined]
              rw [refused, next]
              exact Text.append_drop_of_prefix nonempty (List.isPrefixOf_iff_prefix.mp occurs)
          · rw [next]
            rfl

theorem replaceFrom_identifier (nonempty : word ≠ [])
    (identifier : ∀ c ∈ text, Text.isIdentifierChar c = true) (differs : word ≠ text) :
    Text.replaceFrom Mode.wholeWord.accepts word value none 0 text = text := by
  cases text with
  | nil => rfl
  | cons c text =>
      have next := replaceFrom_inside value nonempty
        (fun e mem => identifier e (List.mem_cons_of_mem c mem)) (identifier c List.mem_cons_self)
      rw [Text.replaceFrom]
      split
      · next occurs =>
          have occurs := List.isPrefixOf_iff_prefix.mp occurs
          obtain ⟨rest, joined⟩ := occurs
          have refused : Mode.wholeWord.accepts none
              ((c :: text).drop word.length).head? = false := by
            cases rest with
            | nil => exact absurd (by simpa using joined) differs
            | cons e rest =>
                have goesOn := identifier e (by simp [← joined])
                simp [← joined, Mode.accepts, Text.standsApart, goesOn]
          rw [refused, next]
          exact Text.append_drop_of_prefix nonempty ⟨rest, joined⟩
      · rw [next]
        rfl

end Whole

namespace Entry

variable {mode : Mode} {entry : Entry} {text : Text}

theorem apply_source (nonempty : entry.source ≠ []) :
    Entry.apply mode entry.source entry = entry.target := by
  rw [apply_eq, if_neg (by simpa using nonempty)]
  exact Text.replaceFrom_self nonempty (by cases mode <;> rfl)

/-- An entry whose name does not occur leaves the text. -/
theorem apply_of_absent (absent : ¬entry.source <:+: text) :
    Entry.apply mode text entry = text := by
  rw [apply_eq]
  split
  · rfl
  · exact Text.replaceFrom_of_not_infix absent

/-- Among whole identifiers an entry replaces its own name and leaves the others. -/
theorem apply_wholeWord_name (nonempty : text ≠ [])
    (letters : ∀ c ∈ text, Text.isIdentifierChar c = true) :
    Entry.apply .wholeWord text entry = if text = entry.source then entry.target else text := by
  split
  · next same =>
      subst same
      exact apply_source nonempty
  · next differs =>
      rw [apply_eq]
      split
      · rfl
      · next named =>
          exact replaceFrom_identifier (by simpa using named) letters (Ne.symm differs)

end Entry

theorem foldl_apply_of_unchanged {entries : List Entry} {mode : Mode} {text : Text}
    (unchanged : ∀ entry ∈ entries, Entry.apply mode text entry = text) :
    entries.foldl (Entry.apply mode) text = text := by
  induction entries with
  | nil => rfl
  | cons entry entries ih =>
      rw [List.foldl_cons, unchanged entry List.mem_cons_self]
      exact ih fun other mem => unchanged other (List.mem_cons_of_mem _ mem)

/-! ### Whole tables -/

/-- **A table is applied to each name by itself**, in either mode. -/
theorem Table.apply_eq_mapNames {table : Table} (lexical : table.IsLexical) (mode : Mode)
    (text : Text) : table.apply mode text = Text.mapNames (table.apply mode) text := by
  have keeps := table.apply_nil mode
  induction text using Text.byNames with
  | name word letters => rw [Text.mapNames_name keeps letters]
  | apart word c back letters separate ih =>
      rw [apply_append_cons lexical mode separate, Text.mapNames_append_cons separate,
        Text.mapNames_name keeps letters, ih]

/-- **Whole identifiers are replaced one by one.** The table is applied to each name of the text
as if it were a text of its own, and a table of one entry replaces the names that are equal to the
name of that entry and leaves the others. -/
theorem apply_wholeWord_by_name (table : Table) (lexical : table.IsLexical) (text : Text) :
    table.apply .wholeWord text = Text.mapNames (table.apply .wholeWord) text ∧
      ∀ entry, table.entries = [entry] →
        table.apply .wholeWord text =
          Text.mapNames (fun name => if name = entry.source then entry.target else name) text := by
  have byName := Table.apply_eq_mapNames lexical .wholeWord text
  refine ⟨byName, ?_⟩
  intro entry single
  rw [byName]
  refine Text.mapNames_congr text fun name nonempty letters => ?_
  rw [Table.apply, single]
  exact Entry.apply_wholeWord_name nonempty letters

/-- Names within longer ones stay, and a replacement is replaced again by a later entry. -/
theorem apply_wholeWord_by_name_sample :
    let table := Table.ofPairs [("mix".toList, "vec 4".toList), ("vec".toList, "float".toList)]
    let single := Table.ofPairs [("mix".toList, "vec 4".toList)]
    let text := "mixer mix(mix_2,vec)".toList
    (table.IsLexical ∧
        table.apply .wholeWord text = Text.mapNames (table.apply .wholeWord) text ∧
        Text.mapNames (table.apply .wholeWord) text = "mixer float 4(mix_2,float)".toList) ∧
      single.IsLexical ∧
        single.apply .wholeWord text = Text.mapNames
          (fun name => if name = "mix".toList then "vec 4".toList else name) text := by
  intro table single text
  have lexical : table.IsLexical := by decide
  have alsoLexical : single.IsLexical := by decide
  exact ⟨⟨lexical, (apply_wholeWord_by_name table lexical text).1, by decide +kernel⟩,
    alsoLexical, (apply_wholeWord_by_name single alsoLexical text).2 _ rfl⟩

/-- Where no entry changes a replacement or a name other than its own, the first entry for the name
decides. -/
theorem foldl_apply_of_stable {entries : List Entry} {mode : Mode} {name : Text}
    (named : ∀ entry ∈ entries, entry.source ≠ [])
    (stable : ∀ entry ∈ entries, ∀ other ∈ entries,
      Entry.apply mode entry.target other = entry.target)
    (passes : ∀ entry ∈ entries, entry.source ≠ name → Entry.apply mode name entry = name) :
    entries.foldl (Entry.apply mode) name = ((Table.mk entries).get? name).getD name := by
  induction entries with
  | nil => rfl
  | cons entry entries ih =>
      have here := List.mem_cons_self (a := entry) (l := entries)
      have later : ∀ other ∈ entries, other ∈ entry :: entries := fun _ => List.mem_cons_of_mem _
      rw [List.foldl_cons]
      by_cases same : entry.source = name
      · have stays : entries.foldl (Entry.apply mode) entry.target = entry.target :=
          foldl_apply_of_unchanged fun other mem => stable entry here other (later other mem)
        rw [← same, Entry.apply_source (named entry here), stays]
        simp [Table.get?]
      · have differs : (entry.source == name) = false := by simpa using same
        rw [passes entry here same,
          ih (fun other mem => named other (later other mem))
            (fun one mem two listed => stable one (later one mem) two (later two listed))
            fun other mem => passes other (later other mem)]
        simp [Table.get?, differs]

/-- Where a name has no other name of the table in it and no replacement has one, the first entry
for the name decides. -/
theorem foldl_apply_name {entries : List Entry} {name : Text}
    (fresh : ∀ entry ∈ entries, ∀ other ∈ entries, ¬other.source <:+: entry.target)
    (whole : ∀ entry ∈ entries, entry.source <:+: name → entry.source = name) (mode : Mode) :
    entries.foldl (Entry.apply mode) name = ((Table.mk entries).get? name).getD name := by
  refine foldl_apply_of_stable (fun entry mem empty => ?_) (fun entry mem other listed => ?_)
    fun entry mem differs => ?_
  · exact fresh entry mem entry mem (empty ▸ List.nil_infix)
  · exact Entry.apply_of_absent (fresh entry mem other listed)
  · exact Entry.apply_of_absent (mt (whole entry mem) differs)

/-- In both modes a name becomes what its entry says, where every name of the table in it is the
whole of it. -/
theorem Table.apply_name {table : Table}
    (fresh : ∀ entry ∈ table.entries, ∀ other ∈ table.entries, ¬other.source <:+: entry.target)
    {name : Text} (letters : ∀ c ∈ name, Text.isIdentifierChar c = true)
    (alone : ∀ entry ∈ table.entries, Text.Alone entry.source name) (mode : Mode) :
    table.apply mode name = (table.get? name).getD name :=
  foldl_apply_name fresh (fun entry mem => (alone entry mem).eq_of_occurs letters) mode

/-- **The two modes come to the same** where they should: no replacement has a name of the table in
it, and in the text the names of the table stand alone. -/
theorem apply_substring_eq_wholeWord (table : Table) (lexical : table.IsLexical)
    (fresh : ∀ entry ∈ table.entries, ∀ other ∈ table.entries, ¬other.source <:+: entry.target)
    (text : Text) (alone : ∀ entry ∈ table.entries, Text.Alone entry.source text) :
    table.apply .substring text = table.apply .wholeWord text := by
  induction text using Text.byNames with
  | name word letters =>
      rw [Table.apply_name fresh letters alone, Table.apply_name fresh letters alone]
  | apart word c back letters separate ih =>
      have first := fun entry mem => (alone entry mem).left
      have later := ih fun entry mem => (alone entry mem).right
      rw [Table.apply_append_cons lexical _ separate, Table.apply_append_cons lexical _ separate,
        Table.apply_name fresh letters first, Table.apply_name fresh letters first, later]

/-- Replacements that are empty or have spaces in them, and a key at each end of the text. -/
theorem apply_substring_eq_wholeWord_sample :
    let table := Table.ofPairs [("lowp".toList, []), ("gl_PointSize".toList, "float psize".toList),
      ("mix".toList, "lerp".toList)]
    let text := "lowp float é=mix(a,gl_PointSize);mix".toList
    (table.IsLexical ∧
        ∀ entry ∈ table.entries, ∀ other ∈ table.entries, ¬other.source <:+: entry.target) ∧
      (∀ entry ∈ table.entries, Text.Alone entry.source text) ∧
      table.apply .substring text = table.apply .wholeWord text := by
  intro table text
  have lexical : table.IsLexical := by decide
  have fresh : ∀ entry ∈ table.entries, ∀ other ∈ table.entries,
      ¬other.source <:+: entry.target := by decide
  have alone : ∀ entry ∈ table.entries, Text.Alone entry.source text := by decide +kernel
  exact ⟨⟨lexical, fresh⟩, alone, apply_substring_eq_wholeWord table lexical fresh text alone⟩

end CrossShade.Substitution
