import CrossShade.Proofs.Blanks
import CrossShade.Proofs.Products
import CrossShade.Proofs.Replacement

/-!
The standard rules work on one statement at a time. Each of them is an edit, and the end of a
statement keeps the edits on its two sides apart: what an assignment or a product takes ends with
the first end of a statement at the latest, and behind it, or behind the indentation of the next
line, names begin as they do at the start of a text. So a body is edited statement by statement, and
every statement keeps its end, which ends its line (`applyAll_standard_local`).
-/

namespace CrossShade.Text

/-! ### Blanks are no word characters -/

/-- No range of one table meets a range of the other. -/
def Ranges.apart (left right : Ranges) : Bool :=
  left.all fun first => right.all fun second =>
    decide (first.2 < second.1) || decide (second.2 < first.1)

theorem Ranges.not_has_of_apart {left right : Ranges} (apart : left.apart right = true) {code : Nat}
    (inside : right.has code = true) : left.has code = false := by
  rw [has, List.any_eq_false]
  intro first mem
  obtain ⟨second, memSecond, within⟩ := List.any_eq_true.mp inside
  have disjoint := List.all_eq_true.mp (List.all_eq_true.mp apart first mem) second memSecond
  simp only [Bool.and_eq_true, Bool.or_eq_true, decide_eq_true_eq] at within disjoint ⊢
  omega

theorem not_wordChar_of_blank {c : Char} (blank : isBlank c = true) : isWordChar c = false := by
  have letters : letterRanges.has c.toNat = false :=
    Ranges.not_has_of_apart (by decide +kernel) blank
  have digits : digitRanges.has c.toNat = false := Ranges.not_has_of_apart (by decide +kernel) blank
  have marks : markRanges.has c.toNat = false := Ranges.not_has_of_apart (by decide +kernel) blank
  have joiners : joinerRanges.has c.toNat = false :=
    Ranges.not_has_of_apart (by decide +kernel) blank
  rw [isWordChar]
  split
  · cases letter : isIdentifierChar c with
    | false => rfl
    | true => exact absurd (not_blank_of_identifierChar letter) (by simp [blank])
  · rw [letters, digits, marks, joiners]
    rfl

theorem wordless_of_spaces {gap : Text} (spaced : ∀ c ∈ gap, c = ' ') :
    ∀ c ∈ gap, isWordChar c = false := by
  intro c mem
  rw [spaced c mem]
  decide

/-! ### Finders of names -/

/-- The finder finds nothing but names: where no word begins it finds nothing, and in front of the
place it looks for the edge of a word only. -/
structure Finder.ByName (find : Finder) : Prop where
  starts : ∀ {before c rest}, isWordChar c = false → find before (c :: rest) = none
  edges : ∀ {before text}, before.any isWordChar = false → find before text = find none text

/-- Behind a character that belongs to no word the edit begins anew. -/
theorem Finder.ByName.edit_behind {find : Finder} (byName : find.ByName) {c : Char}
    (wordless : isWordChar c = false) (text : Text) :
    edit find (some c) text = edit find none text := by
  have edge : (some c).any isWordChar = false := wordless
  exact edit_congr_start (byName.edges edge)

/-- Characters that belong to no word stay, and behind them the edit begins anew. -/
theorem Finder.ByName.edit_append {find : Finder} (byName : find.ByName) {gap : Text}
    (wordless : ∀ c ∈ gap, isWordChar c = false) {before : Option Char}
    (edge : before.any isWordChar = false) (text : Text) :
    edit find before (gap ++ text) = gap ++ edit find none text := by
  induction gap generalizing before with
  | nil => exact edit_congr_start (byName.edges edge)
  | cons c gap ih =>
      obtain ⟨here, later⟩ := List.forall_mem_cons.mp wordless
      have behind : (some c).any isWordChar = false := here
      rw [List.cons_append, edit_of_none (byName.starts here), ih later behind, List.cons_append]

/-! ### Ended texts -/

/-- The text ends with the end of a statement. -/
def Ended (text : Text) : Prop :=
  text.getLast? = some ';'

section Ended

variable {c : Char} {text front behind : Text}

theorem ended_iff : Ended text ↔ ∃ statement, text = statement ++ [';'] :=
  List.getLast?_eq_some_iff

theorem ended_append_cons : Ended (front ++ c :: text) ↔ Ended (c :: text) := by
  simp [Ended, List.getLast?_append, List.getLast?_cons]

theorem Ended.of_append (ended : Ended (front ++ behind)) (nonempty : behind ≠ []) :
    Ended behind := by
  obtain ⟨c, rest, rfl⟩ := List.exists_cons_of_ne_nil nonempty
  exact ended_append_cons.mp ended

theorem Ended.of_cons (ended : Ended (c :: text)) (other : c ≠ ';') : Ended text := by
  cases text with
  | nil => exact absurd (Option.some.inj ended) other
  | cons d text =>
      have whole : Ended ([c] ++ d :: text) := ended
      exact ended_append_cons.mp whole

/-- The end of a statement is no space, so the spaces at the start stay apart from it. -/
theorem Ended.dropSpaces_append (ended : Ended text) (back : Text) :
    Ended (dropSpaces text) ∧ dropSpaces (text ++ back) = dropSpaces text ++ back := by
  obtain ⟨statement, rfl⟩ := ended_iff.mp ended
  have solid : ';' ≠ ' ' := by decide
  rw [dropSpaces_append_cons solid, List.append_assoc, List.singleton_append,
    dropSpaces_append_cons solid, List.append_assoc, List.singleton_append]
  exact ⟨ended_iff.mpr ⟨_, rfl⟩, rfl⟩

/-- An edit of what needs the end of a statement changes nothing where no statement ends. -/
theorem edit_of_unended {find : Finder} (needs : ∀ before place, find before place ≠ none →
    ';' ∈ place) (before : Option Char) (unended : ';' ∉ text) : edit find before text = text := by
  induction text generalizing before with
  | nil => rfl
  | cons c text ih =>
      have nothing : find before (c :: text) = none := by
        by_contra found
        exact unended (needs before _ found)
      rw [edit_of_none nothing, ih _ (mt (List.mem_cons_of_mem c) unended)]

end Ended

/-! ### Ends that stay -/

/-- Whether a character ends a statement or a line. -/
def isStop (c : Char) : Bool :=
  c == ';' || c == '\n'

/-- A text without stops. -/
theorem stopless_iff {text : Text} :
    (∀ c ∈ text, isStop c = false) ↔ ';' ∉ text ∧ '\n' ∉ text := by
  constructor
  · intro plain
    exact ⟨fun mem => absurd (plain _ mem) (by decide), fun mem => absurd (plain _ mem) (by decide)⟩
  · rintro ⟨unended, oneLine⟩ c mem
    have noStop : c ≠ ';' := fun same => unended (same ▸ mem)
    have noEnd : c ≠ '\n' := fun same => oneLine (same ▸ mem)
    simp [isStop, noStop, noEnd]

theorem filter_isStop_eq_nil_iff {text : Text} :
    text.filter isStop = [] ↔ ∀ c ∈ text, isStop c = false := by
  simp

theorem isStop_eq_false_of_spaces {gap : Text} (spaced : ∀ c ∈ gap, c = ' ') :
    ∀ c ∈ gap, isStop c = false := by
  intro c mem
  rw [spaced c mem]
  rfl

theorem isStop_eq_false_of_word {c : Char} (word : isWordChar c = true) : isStop c = false := by
  have noStop : c ≠ ';' := by
    rintro rfl
    exact absurd word (by decide)
  have oneLine : c ≠ '\n' := by
    rintro rfl
    exact absurd word (by decide)
  simp [isStop, noStop, oneLine]

/-- The finder replaces words, each with what stands behind it. What it takes and what it puts in
both begin with a word and end with the same character, in front of which neither has a stop. -/
structure Finder.KeepsStops (find : Finder) : Prop where
  byName : find.ByName
  inside : ∀ {before text}, before.any isWordChar = true → find before text = none
  found : ∀ {before text value rest}, find before text = some (value, rest) →
    ∃ front inner last, text = front ++ last :: rest ∧ value = inner ++ [last] ∧
      inner.head?.any isWordChar = true ∧ ∀ c ∈ front ++ inner, isStop c = false

namespace Finder.KeepsStops

variable {find : Finder} {before : Option Char} {text rest inner : Text} {last : Char}

theorem proper (keeps : find.KeepsStops) : find.Proper := by
  intro before text value rest found
  obtain ⟨front, inner, last, whole, -⟩ := keeps.found found
  exact ⟨front ++ [last], by simp, by simp [whole]⟩

theorem edit_of_some (keeps : find.KeepsStops)
    (found : find before text = some (inner ++ [last], rest)) :
    edit find before text = inner ++ last :: edit find (some last) rest := by
  obtain ⟨front, other, c, whole, value, -⟩ := keeps.found found
  obtain ⟨rfl, same⟩ := List.append_inj' value rfl
  obtain rfl := List.singleton_inj.mp same
  have split : text = front ++ [last] ++ rest := by rw [whole, List.append_assoc]; rfl
  rw [split] at found ⊢
  rw [Text.edit_of_some found (by simp), List.getLast?_concat, List.append_assoc]
  rfl

/-- Induction along the places that the edit comes to, with what it puts in. -/
@[elab_as_elim]
theorem byPlaces (keeps : find.KeepsStops) {motive : Option Char → Text → Prop}
    (done : ∀ before, motive before [])
    (kept : ∀ before c rest, find before (c :: rest) = none → motive (some c) rest →
      motive before (c :: rest))
    (found : ∀ before front last rest inner, inner.head?.any isWordChar = true →
      (∀ c ∈ front ++ inner, isStop c = false) →
      find before (front ++ last :: rest) = some (inner ++ [last], rest) →
      motive (some last) rest → motive before (front ++ last :: rest))
    (before : Option Char) (text : Text) : motive before text := by
  induction before, text using keeps.proper.byPlaces with
  | done before => exact done before
  | kept before c rest none ih => exact kept before c rest none ih
  | found before taken value rest nonempty stands ih =>
      obtain ⟨front, inner, last, whole, rfl, starts, plain⟩ := keeps.found stands
      have split : taken = front ++ [last] := List.append_cancel_right (whole.trans (by simp))
      subst split
      rw [List.getLast?_concat] at ih
      rw [List.append_assoc] at stands ⊢
      exact found before front last rest inner starts plain stands ih

theorem getLast?_edit (keeps : find.KeepsStops) (before : Option Char) (text : Text) :
    (edit find before text).getLast? = text.getLast? := by
  induction before, text using keeps.byPlaces with
  | done before => rfl
  | kept before c rest none ih => rw [edit_of_none none, List.getLast?_cons, List.getLast?_cons, ih]
  | found before front last rest inner _ _ found ih =>
      rw [keeps.edit_of_some found, List.getLast?_append, List.getLast?_append,
        List.getLast?_cons, List.getLast?_cons, ih]
      rfl

/-- The stops of a text stay. -/
theorem filter_edit (keeps : find.KeepsStops) (before : Option Char) (text : Text) :
    (edit find before text).filter isStop = text.filter isStop := by
  induction before, text using keeps.byPlaces with
  | done before => rfl
  | kept before c rest none ih => rw [edit_of_none none, List.filter_cons, List.filter_cons, ih]
  | found before front last rest inner _ plain found ih =>
      obtain ⟨plainFront, plainInner⟩ := List.forall_mem_append.mp plain
      rw [keeps.edit_of_some found, List.filter_append, List.filter_append,
        filter_isStop_eq_nil_iff.mpr plainFront, filter_isStop_eq_nil_iff.mpr plainInner,
        List.filter_cons, List.filter_cons, ih]

theorem mem_edit_iff (keeps : find.KeepsStops) (before : Option Char) (text : Text) :
    ';' ∈ edit find before text ↔ ';' ∈ text := by
  have stays : ';' ∈ (edit find before text).filter isStop ↔ ';' ∈ text.filter isStop := by
    rw [keeps.filter_edit]
  simpa [isStop] using stays

/-- A statement has no more stops than what it was made from. -/
theorem filter_of_edit_append_stop (keeps : find.KeepsStops) {front statement : Text} {d : Char}
    (alone : edit find before (front ++ [d]) = statement ++ [d]) :
    statement.filter isStop = front.filter isStop := by
  have stops := keeps.filter_edit before (front ++ [d])
  rw [alone, List.filter_append, List.filter_append] at stops
  exact List.append_cancel_right stops

theorem unended_of_edit_append_stop (keeps : find.KeepsStops) {front statement : Text} {d : Char}
    (alone : edit find before (front ++ [d]) = statement ++ [d]) (unended : ';' ∉ front) :
    ';' ∉ statement := by
  intro mem
  have stop := List.mem_filter.mpr ⟨mem, (rfl : isStop ';' = true)⟩
  rw [keeps.filter_of_edit_append_stop alone] at stop
  exact unended (List.mem_filter.mp stop).1

/-- Either the first character stays, or a word begins with it and another one takes its place. -/
theorem head?_edit (keeps : find.KeepsStops) (before : Option Char) (text : Text) :
    (edit find before text).head? = text.head? ∨ ∃ c d, text.head? = some c ∧
      (edit find before text).head? = some d ∧ isWordChar c = true ∧ isWordChar d = true := by
  cases text with
  | nil => exact .inl rfl
  | cons c text =>
      cases found : find before (c :: text) with
      | none => exact .inl (by rw [edit_of_none found]; rfl)
      | some result =>
          obtain ⟨value, rest⟩ := result
          obtain ⟨-, inner, last, -, rfl, starts, -⟩ := keeps.found found
          have word : isWordChar c = true := by
            by_contra wordless
            rw [keeps.byName.starts (by simpa using wordless)] at found
            cases found
          obtain ⟨d, first, wordFirst⟩ := (Option.any_eq_true _ _).mp starts
          obtain ⟨more, rfl⟩ := List.head?_eq_some_iff.mp first
          refine .inr ⟨c, d, rfl, ?_, word, wordFirst⟩
          rw [keeps.edit_of_some found]
          rfl

/-- Spaces at the start stay, and nothing else becomes one. -/
theorem dropSpaces_edit (keeps : find.KeepsStops) (text : Text) :
    dropSpaces (edit find none text) = edit find none (dropSpaces text) := by
  have wordless : ∀ c ∈ leadingSpaces text, isWordChar c = false :=
    wordless_of_spaces fun c => eq_space_of_mem_leadingSpaces
  have apart := keeps.byName.edit_append wordless Option.any_none (dropSpaces text)
  rw [leadingSpaces_append_dropSpaces] at apart
  refine (dropSpaces_eq_iff ?_).mpr ⟨_, fun c => eq_space_of_mem_leadingSpaces, apart⟩
  intro space
  rcases keeps.head?_edit none (dropSpaces text) with same | ⟨-, d, -, first, -, word⟩
  · exact head?_dropSpaces text (same ▸ space)
  · obtain rfl := Option.some.inj (space.symm.trans first)
    exact absurd word (by decide)

end Finder.KeepsStops

end CrossShade.Text

namespace CrossShade.Rule

open CrossShade.Pattern CrossShade.Text

/-! ### Names -/

/-- A name: word characters, and at least one of them. -/
structure IsName (name : Text) : Prop where
  nonempty : name ≠ []
  word : ∀ c ∈ name, isWordChar c = true

section Names

variable {name text behind : Text} {sign c : Char} {before : Option Char}

theorem IsName.not_mem (isName : IsName name) (other : isWordChar c = false) : c ∉ name := by
  intro mem
  exact absurd (isName.word c mem) (by simp [other])

theorem IsName.behindSign_eq_none (isName : IsName name) (other : isWordChar c = false) :
    behindSign name sign before (c :: text) = none := by
  cases found : behindSign name sign before (c :: text) with
  | none => rfl
  | some behind =>
      obtain ⟨-, later, here, -⟩ := exists_of_behindSign found
      obtain ⟨d, more, rfl⟩ := List.exists_cons_of_ne_nil isName.nonempty
      obtain ⟨rfl, -⟩ := List.cons.inj here
      exact absurd List.mem_cons_self (isName.not_mem other)

theorem behindSign_congr_start (edge : before.any isWordChar = false) :
    behindSign name sign before text = behindSign name sign none text := by
  rw [behindSign, behindSign, isWordEdge, isWordEdge, edge]
  rfl

/-- A character that belongs to no name and is neither a space nor the sign ends the search for the
sign. -/
theorem IsName.behindSign_append_cons (isName : IsName name) (wordless : isWordChar c = false)
    (solid : c ≠ ' ') (other : c ≠ sign) (front back : Text) :
    behindSign name sign before (front ++ c :: back) =
      (behindSign name sign before front).map (· ++ c :: back) := by
  have edge : isWordEdge before (front ++ c :: back) = isWordEdge before front := by
    cases front with
    | nil => simp [isWordEdge, wordless]
    | cons d front => rfl
  rw [behindSign, behindSign, edge, isPrefixOf_append_cons (isName.not_mem wordless)]
  split
  · next starts =>
      obtain ⟨later, rfl⟩ := List.isPrefixOf_iff_prefix.mp (Bool.and_eq_true_iff.mp starts).2
      rw [List.append_assoc, List.drop_left, List.drop_left, dropSpaces_append_cons solid]
      cases dropSpaces later with
      | nil => exact if_neg other
      | cons d later =>
          dsimp only [List.cons_append]
          split <;> rfl
  · rfl

/-- Whether a name and a sign stand at the start of an ended text is seen in that text, and if they
do, the end is still to come. -/
theorem IsName.behindSign_append (isName : IsName name) (other : sign ≠ ';') (ended : Ended text)
    (back : Text) (before : Option Char) :
    (∀ behind, behindSign name sign before text = some behind → Ended behind) ∧
      behindSign name sign before (text ++ back) =
        (behindSign name sign before text).map (· ++ back) := by
  obtain ⟨statement, rfl⟩ := ended_iff.mp ended
  have stop : ∀ back, behindSign name sign before (statement ++ ';' :: back) =
      (behindSign name sign before statement).map (· ++ ';' :: back) :=
    isName.behindSign_append_cons (by decide) (by decide) other.symm statement
  constructor
  · intro behind found
    rw [stop] at found
    obtain ⟨inner, -, rfl⟩ := Option.map_eq_some_iff.mp found
    exact ended_iff.mpr ⟨inner, rfl⟩
  · rw [List.append_assoc, List.singleton_append, stop, stop, Option.map_map]
    refine congrArg (Option.map · _) (funext fun inner => ?_)
    simp

end Names

/-! ### Assignments and products -/

section Places

variable {name text : Text} {before : Option Char}

theorem operandEnd_append (ended : Ended text) (back : Text) :
    operandEnd (text ++ back) = (operandEnd text).map fun cut => (cut.1, cut.2 ++ back) := by
  induction text with
  | nil => cases ended
  | cons c text ih =>
      rw [List.cons_append, operandEnd, operandEnd]
      split
      · rfl
      · next other =>
          split
          · rfl
          · rw [ih (ended.of_cons other), Option.map_map, Option.map_map]
            rfl

/-- Behind a character that is no space nothing matters to what is assigned. -/
theorem assignedEnd_append (solid : ∃ c ∈ text, c ≠ ' ') (back : Text) :
    assignedEnd (text ++ back) = (assignedEnd text).map fun cut => (cut.1, cut.2 ++ back) := by
  induction text with
  | nil => simp at solid
  | cons c text ih =>
      rw [List.cons_append, assignedEnd, assignedEnd]
      split
      · next space =>
          rw [ih (by simpa [space] using solid)]
          cases assignedEnd text <;> rfl
      · split <;> rfl

/-- The finder looks for a name with a sign behind it and leaves the rest to `cut`, which does not
see beyond the end of a statement. -/
structure Signed (find : Finder) (name : Text) (sign : Char)
    (cut : Text → Option (Text × Text)) : Prop where
  isName : IsName name
  unended : sign ≠ ';'
  solid : sign ≠ ' '
  wordless : isWordChar sign = false
  eq : ∀ before text, find before text = (behindSign name sign before text).bind cut
  cuts : ∀ {text}, Ended text → ∀ back,
    cut (text ++ back) = (cut text).map fun result => (result.1, result.2 ++ back)

section Signed

variable {find : Finder} {sign : Char} {cut : Text → Option (Text × Text)}

theorem Signed.byName (signed : Signed find name sign cut) : find.ByName where
  starts other := by
    rw [signed.eq, signed.isName.behindSign_eq_none other]
    rfl
  edges edge := by rw [signed.eq, signed.eq, behindSign_congr_start edge]

theorem Signed.inside (signed : Signed find name sign cut) (joined : before.any isWordChar = true) :
    find before text = none := by
  rw [signed.eq]
  cases found : behindSign name sign before text with
  | none => rfl
  | some behind =>
      obtain ⟨edge, later, rfl, -⟩ := exists_of_behindSign found
      obtain ⟨c, more, rfl⟩ := List.exists_cons_of_ne_nil signed.isName.nonempty
      have word := signed.isName.word c List.mem_cons_self
      simp [isWordEdge, joined, word] at edge

/-- What is found in an ended text does not reach beyond it. -/
theorem Signed.ends (signed : Signed find name sign cut) (ended : Ended text) (back : Text) :
    find.Ends text back := by
  intro before place nonempty suffix
  obtain ⟨front, rfl⟩ := suffix
  obtain ⟨endedBehind, apart⟩ :=
    signed.isName.behindSign_append signed.unended (ended.of_append nonempty) back before
  rw [signed.eq, signed.eq, apart]
  cases found : behindSign name sign before place with
  | none => rfl
  | some behind => exact signed.cuts (endedBehind behind found) back

/-- **The end of a statement keeps edits apart**: what is found in front of it ends there, and
behind it names begin as they do at the start of a text. -/
theorem Signed.edit_append (signed : Signed find name sign cut) (proper : find.Proper)
    (ended : Ended text) (back : Text) :
    edit find none (text ++ back) = edit find none text ++ edit find none back := by
  have edge : (text.getLast?.or none).any isWordChar = false := by
    rw [show text.getLast? = some ';' from ended]
    decide
  rw [Text.edit_append proper (signed.ends ended back), edit_congr_start (signed.byName.edges edge)]

/-- Behind the end of a statement names are found as if nothing stood in front of it, and the end
stays where it is. -/
theorem Signed.edit_append_stop (signed : Signed find name sign cut) (keeps : find.KeepsStops)
    (front back : Text) :
    ∃ statement, edit find none (front ++ [';']) = statement ++ [';'] ∧
      edit find none (front ++ ';' :: back) = statement ++ ';' :: edit find none back := by
  have ended : Ended (front ++ [';']) := ended_iff.mpr ⟨front, rfl⟩
  obtain ⟨statement, alone⟩ := ended_iff.mp ((keeps.getLast?_edit none _).trans ended)
  have whole := signed.edit_append keeps.proper ended back
  rw [alone, List.append_assoc, List.append_assoc] at whole
  exact ⟨statement, alone, whole⟩

end Signed

/-- What an assignment becomes, from behind its sign. -/
def returnCut (behind : Text) : Option (Text × Text) :=
  (assignedEnd behind).map fun cut => ("return ".toList ++ [cut.1], cut.2)

/-- What a product becomes, from behind its sign. -/
def callCut (matrix behind : Text) : Option (Text × Text) :=
  (operandEnd (dropSpaces behind)).map fun cut => (call cut.1 matrix, cut.2)

theorem signed_returned (isName : IsName name) : Signed (returned name) name '=' returnCut where
  isName := isName
  unended := by decide
  solid := by decide
  wordless := by decide
  eq before text := Option.map_bind
  cuts ended back := by
    have solid : ∃ c ∈ _, c ≠ ' ' := ⟨';', List.mem_of_getLast? ended, by decide⟩
    rw [returnCut, returnCut, assignedEnd_append solid, Option.map_map, Option.map_map]
    rfl

theorem signed_multiplied (isName : IsName name) :
    Signed (multiplied name) name '*' (callCut name) where
  isName := isName
  unended := by decide
  solid := by decide
  wordless := by decide
  eq before text := Option.map_bind
  cuts ended back := by
    obtain ⟨endedOperand, apart⟩ := ended.dropSpaces_append back
    rw [callCut, callCut, apart, operandEnd_append endedOperand, Option.map_map, Option.map_map]
    rfl

end Places

/-! ### Returns -/

section Returns

variable {target : Text}

theorem keepsStops_returned (isName : IsName target) : (returned target).KeepsStops where
  byName := (signed_returned isName).byName
  inside := (signed_returned isName).inside
  found := by
    intro before text value rest found
    obtain ⟨⟨c, rest⟩, stands, eq⟩ := Option.map_eq_some_iff.mp found
    obtain ⟨rfl, rfl⟩ := Prod.mk.inj eq
    obtain ⟨gap, after, -, spaced, here, -⟩ :=
      @first_assignment_of_some target rest c ⟨0, before, text⟩ stands
    have plainGaps := isStop_eq_false_of_spaces spaced
    refine ⟨target ++ gap ++ '=' :: after, "return ".toList, c, ?_, rfl, rfl, ?_⟩
    · exact here.trans (List.append_assoc _ [c] rest)
    · intro d mem
      simp only [List.mem_append, List.mem_cons, or_assoc] at mem
      rcases mem with mem | mem | rfl | mem | mem
      · exact isStop_eq_false_of_word (isName.word d mem)
      · exact plainGaps d (List.mem_append_left after mem)
      · rfl
      · exact plainGaps d (List.mem_append_right gap mem)
      · exact (by decide : ∀ d ∈ "return ".toList, isStop d = false) d mem

/-- Assignments behind the end of a statement are found as if nothing stood in front of them, and
the end stays where it is. -/
theorem edit_returned_append (isName : IsName target) (front back : Text) :
    ∃ statement, edit (returned target) none (front ++ [';']) = statement ++ [';'] ∧
      edit (returned target) none (front ++ ';' :: back) =
        statement ++ ';' :: edit (returned target) none back :=
  (signed_returned isName).edit_append_stop (keepsStops_returned isName) front back

/-- An assignment does not begin with a space, and neither does a return. -/
theorem dropSpaces_edit_returned (isName : IsName target) (text : Text) :
    dropSpaces (edit (returned target) none text) =
      edit (returned target) none (dropSpaces text) :=
  (keepsStops_returned isName).dropSpaces_edit text

end Returns

/-! ### Lines -/

section Lines

variable {indent : Text}

theorem proper_broken (indent : Text) : (broken indent).Proper :=
  (@finds_statementEnd (fun _ => ";\n".toList ++ indent) indent fun _ => rfl).proper

theorem edit_broken_of_unended {text : Text} (unended : ';' ∉ text) :
    edit (broken indent) none text = text := by
  refine edit_of_unended ?_ none unended
  intro before place found
  by_contra absent
  exact found (broken_eq_none fun rest whole => absent (whole ▸ List.mem_cons_self))

/-- **Each statement ends its line**, and the next one begins behind the indentation. -/
theorem edit_broken_append (front back : Text) :
    edit (broken indent) none (front ++ ';' :: back) =
      edit (broken indent) none front ++
        (";\n".toList ++ indent ++ edit (broken indent) none (dropSpaces back)) := by
  have ends : (broken indent).Ends front (';' :: back) := by
    intro before place nonempty suffix
    obtain ⟨c, rest, rfl⟩ := List.exists_cons_of_ne_nil nonempty
    by_cases stop : c = ';'
    · subst stop
      have apart := dropSpaces_append_cons (by decide : ';' ≠ ' ') rest back
      exact congrArg (fun behind => some (";\n".toList ++ indent, behind)) apart
    · rw [broken_eq_none (by simp [stop]), broken_eq_none (by simp [stop])]
      rfl
  have anywhere : ∀ before text,
      edit (broken indent) before text = edit (broken indent) none text :=
    fun before text => edit_congr_start (by unfold broken; split <;> rfl)
  have stop : (broken indent) none ((';' :: leadingSpaces back) ++ dropSpaces back) =
      some (";\n".toList ++ indent, dropSpaces back) := by
    rw [List.cons_append, leadingSpaces_append_dropSpaces]
    rfl
  rw [edit_append (proper_broken indent) ends, anywhere _ (';' :: back)]
  have whole := edit_of_some stop (List.cons_ne_nil _ _)
  rw [List.cons_append, leadingSpaces_append_dropSpaces, anywhere _ (dropSpaces back)] at whole
  rw [whole]

theorem wordless_indent (blank : AllBlank indent) : ∀ c ∈ '\n' :: indent, isWordChar c = false := by
  intro c mem
  rcases List.mem_cons.mp mem with rfl | mem
  · decide
  · exact not_wordChar_of_blank (blank c mem)

/-- Behind the end of a line names are found as at the start of a text. -/
theorem Signed.edit_append_line {find : Finder} {name : Text} {sign : Char}
    {cut : Text → Option (Text × Text)} (signed : Signed find name sign cut) (proper : find.Proper)
    (blank : AllBlank indent) (front back : Text) :
    edit find none (front ++ (";\n".toList ++ indent ++ back)) =
      edit find none (front ++ [';']) ++ ('\n' :: indent ++ edit find none back) := by
  have ended : Ended (front ++ [';']) := ended_iff.mpr ⟨front, rfl⟩
  have whole : front ++ (";\n".toList ++ indent ++ back) =
      front ++ [';'] ++ ('\n' :: indent ++ back) := (List.append_assoc _ [';'] _).symm
  rw [whole, signed.edit_append proper ended,
    signed.byName.edit_append (wordless_indent blank) rfl]

end Lines

/-! ### Calls -/

section Calls

variable {matrix indent : Text}

/-- Behind the end of a line products are found as at the start of a text. -/
theorem edit_multiplied_append (isName : IsName matrix) (blank : AllBlank indent)
    (front back : Text) :
    edit (multiplied matrix) none (front ++ (";\n".toList ++ indent ++ back)) =
      edit (multiplied matrix) none (front ++ [';']) ++
        ('\n' :: indent ++ edit (multiplied matrix) none back) :=
  (signed_multiplied isName).edit_append_line (finds_product matrix).proper blank front back

/-- A call ends the statement that the product ended, and is all on one line. -/
theorem exists_of_multiplied (isName : IsName matrix) {before : Option Char}
    {text value rest : Text} (found : multiplied matrix before text = some (value, rest)) :
    ∃ front inner, text = front ++ ';' :: rest ∧ value = inner ++ [';'] ∧
      inner.head?.any isWordChar = true ∧ ∀ c ∈ front ++ inner, isStop c = false := by
  obtain ⟨-, gap, after, operand, spaced, -, rfl, unended, oneLine, rfl⟩ :=
    multiplied_eq_some_iff.mp found
  have plainMatrix : ∀ c ∈ matrix, isStop c = false :=
    fun c mem => isStop_eq_false_of_word (isName.word c mem)
  have plainOperand := stopless_iff.mpr ⟨unended, oneLine⟩
  obtain ⟨plainGap, plainAfter⟩ := List.forall_mem_append.mp (isStop_eq_false_of_spaces spaced)
  refine ⟨matrix ++ gap ++ '*' :: (after ++ operand),
    "mul( ".toList ++ operand ++ ", ".toList ++ matrix ++ " )".toList, ?_, ?_, rfl, ?_⟩
  · simp only [List.append_assoc, List.cons_append]
  · have whole : call operand matrix = "mul( ".toList ++ (operand ++ (", ".toList ++ (matrix ++
        (" )".toList ++ [';'])))) := rfl
    rw [whole]
    simp only [List.append_assoc]
  · simp only [List.forall_mem_append, List.forall_mem_cons]
    exact ⟨⟨⟨plainMatrix, plainGap⟩, rfl, plainAfter, plainOperand⟩,
      ⟨⟨⟨by decide, plainOperand⟩, by decide⟩, plainMatrix⟩, by decide⟩

/-- Without the end of a statement there is no product. -/
theorem edit_multiplied_of_unended {text : Text} (unended : ';' ∉ text) :
    edit (multiplied matrix) none text = text := by
  refine edit_of_unended ?_ none unended
  intro before place found
  obtain ⟨⟨value, rest⟩, stands⟩ := Option.ne_none_iff_exists'.mp found
  obtain ⟨-, gap, after, operand, -, -, rfl, -⟩ := multiplied_eq_some_iff.mp stands
  simp

theorem keepsStops_multiplied (isName : IsName matrix) : (multiplied matrix).KeepsStops where
  byName := (signed_multiplied isName).byName
  inside := (signed_multiplied isName).inside
  found := by
    intro before text value rest found
    obtain ⟨front, inner, whole, eq, starts, plain⟩ := exists_of_multiplied isName found
    exact ⟨front, inner, ';', whole, eq, starts, plain⟩

end Calls

/-! ### The ends of lines -/

/-- Behind every end of a statement the next line begins. -/
def Lined (indent text : Text) : Prop :=
  ∀ front back, text = front ++ ';' :: back → '\n' :: indent <+: back

section Lined

variable {indent text : Text}

theorem lined_nil : Lined indent [] := by
  intro front back cut
  exact absurd cut.symm (by simp)

theorem Lined.of_append {front : Text} (lined : Lined indent (front ++ text)) :
    Lined indent text := by
  rintro earlier back rfl
  exact lined (front ++ earlier) back (List.append_assoc _ _ _).symm

theorem Lined.stop (lined : Lined indent text) (starts : '\n' :: indent <+: text) :
    Lined indent (';' :: text) := by
  intro front back cut
  cases front with
  | nil =>
      obtain ⟨-, rfl⟩ := List.cons.inj cut
      exact starts
  | cons c front => exact lined front back (List.cons.inj cut).2

theorem Lined.append (lined : Lined indent text) {front : Text} (unended : ';' ∉ front) :
    Lined indent (front ++ text) := by
  induction front with
  | nil => exact lined
  | cons c front ih =>
      obtain ⟨other, later⟩ := not_or.mp (mt List.mem_cons.mpr unended)
      intro earlier back cut
      cases earlier with
      | nil => exact absurd (List.cons.inj cut).1.symm other
      | cons d earlier => exact ih later earlier back (List.cons.inj cut).2

theorem value_of_broken {before : Option Char} {text value behind : Text}
    (found : broken indent before text = some (value, behind)) :
    value = ";\n".toList ++ indent := by
  unfold broken at found
  split at found
  · exact (Prod.mk.inj (Option.some.inj found)).1.symm
  · cases found

theorem lined_edit_broken (unended : ';' ∉ indent) (before : Option Char) (text : Text) :
    Lined indent (edit (broken indent) before text) := by
  induction before, text using (proper_broken indent).byPlaces with
  | done before => exact lined_nil
  | kept before c rest none ih =>
      have other : ';' ∉ [c] := by
        intro mem
        rw [← List.mem_singleton.mp mem] at none
        cases none
      rw [edit_of_none none]
      exact ih.append other
  | found before taken value behind nonempty found ih =>
      have line : ';' ∉ '\n' :: indent := by simpa using unended
      rw [edit_of_some found nonempty, value_of_broken found]
      exact (ih.append line).stop (List.prefix_append _ _)

/-- A call stands where the end of a statement stood, and the next line begins behind it. -/
theorem lined_edit_multiplied {matrix : Text} (isName : IsName matrix) (blank : AllBlank indent)
    {before : Option Char} (lined : Lined indent text) :
    Lined indent (edit (multiplied matrix) before text) := by
  -- The start of a line stays behind the end of a statement.
  have starts : ∀ {rest}, '\n' :: indent <+: rest →
      '\n' :: indent <+: edit (multiplied matrix) (some ';') rest := by
    rintro _ ⟨back, rfl⟩
    have edge : (some ';').any isWordChar = false := by decide
    rw [(signed_multiplied isName).byName.edit_append (wordless_indent blank) edge]
    exact List.prefix_append _ _
  induction before, text using (finds_product matrix).proper.byPlaces with
  | done before => exact lined_nil
  | kept before c rest none ih =>
      have whole : Lined indent ([c] ++ rest) := lined
      have later := ih whole.of_append
      rw [edit_of_none none]
      by_cases stop : c = ';'
      · subst stop
        exact later.stop (starts (lined [] rest rfl))
      · have other : ';' ∉ [c] := by simpa using Ne.symm stop
        exact later.append other
  | found before taken value behind nonempty found ih =>
      obtain ⟨front, inner, whole, rfl, -, plain⟩ := exists_of_multiplied isName found
      have unended : ';' ∉ inner :=
        fun mem => absurd (plain ';' (List.mem_append_right front mem)) (by decide)
      have taken_eq : taken = front ++ [';'] :=
        List.append_cancel_right (whole.trans (by simp))
      have later := ih lined.of_append
      rw [edit_of_some found nonempty, List.append_assoc]
      subst taken_eq
      rw [List.getLast?_concat] at later ⊢
      exact (later.stop (starts (lined front behind whole))).append unended

end Lined

/-! ### All rules -/

/-- The indentation stands in the template as it is. -/
theorem expand_indent (indent : Text) (found : Match) :
    Template.expand [] (Text.replaceAll indentMark (Template.escape indent)
      (";\n".toList ++ indentMark)) found = ";\n".toList ++ indent := by
  have template : Text.replaceAll indentMark (Template.escape indent)
      (";\n".toList ++ indentMark) = ';' :: '\n' :: (Template.escape indent ++ []) := rfl
  have segments : Template.segments (';' :: '\n' :: Template.escape indent) =
      .char ';' :: .char '\n' :: Template.segments (Template.escape indent) := rfl
  rw [template, List.append_nil, Template.expand, segments, Template.segments_escape]
  exact Template.flatMap_fill_chars [] found (';' :: '\n' :: indent)

/-- The standard rules, one edit after another. -/
theorem applyAll_standard (indent body : Text) :
    applyAll standard indent body =
      edit (multiplied "u_mvp".toList) none (edit (broken indent) none
        (edit (returned "gl_FragColor".toList) none body)) := by
  rw [standard_eq, applyAll, List.foldl_cons, List.foldl_cons, List.foldl_cons, List.foldl_nil,
    apply_eq_edit rfl (finds_product _),
    apply_eq_edit rfl (finds_statementEnd (expand_indent indent)),
    apply_eq_edit rfl (finds_assignment _)]

theorem isName_fragColor : IsName "gl_FragColor".toList :=
  ⟨by decide, by decide⟩

theorem isName_mvp : IsName "u_mvp".toList :=
  ⟨by decide, by decide⟩

/-- A statement by itself keeps its end, which ends the line. -/
theorem applyAll_standard_append_stop {indent : Text} (blank : AllBlank indent) (front : Text) :
    ∃ statement, edit (returned "gl_FragColor".toList) none (front ++ [';']) = statement ++ [';'] ∧
      applyAll standard indent (front ++ [';']) =
        edit (multiplied "u_mvp".toList) none (edit (broken indent) none statement ++ [';']) ++
          '\n' :: indent := by
  obtain ⟨statement, alone, -⟩ := edit_returned_append isName_fragColor front []
  have nothing : edit (multiplied "u_mvp".toList) none
      (edit (broken indent) none (dropSpaces [])) = [] := rfl
  refine ⟨statement, alone, ?_⟩
  rw [applyAll_standard, alone, edit_broken_append, edit_multiplied_append isName_mvp blank, nothing,
    List.append_nil]

/-- Without the end of a statement there are no lines to end and no products. -/
theorem applyAll_standard_of_unended {body : Text} (unended : ';' ∉ body) (indent : Text) :
    applyAll standard indent body = edit (returned "gl_FragColor".toList) none body := by
  have stays : ';' ∉ edit (returned "gl_FragColor".toList) none body := by
    rwa [(keepsStops_returned isName_fragColor).mem_edit_iff]
  rw [applyAll_standard, edit_broken_of_unended stays, edit_multiplied_of_unended stays]

/-- **Bodies are edited statement by statement.** With the standard rules and an indentation of
blanks, what follows the end of a statement is edited as if it stood alone, without the spaces in
front of it, and every statement ends its line. The end itself is kept: what comes of a statement
with its end is the statement, with its assignments made returns and then its products calls, and
behind it the start of the next line. Where no statement ends there are only assignments. -/
theorem applyAll_standard_local {indent : Text} (blank : AllBlank indent) :
    (∀ front back, applyAll standard indent (front ++ ';' :: back) =
      applyAll standard indent (front ++ [';']) ++ applyAll standard indent (dropSpaces back)) ∧
    (∀ body front back, applyAll standard indent body = front ++ ';' :: back →
      '\n' :: indent <+: back) ∧
    (∀ front, ∃ start, applyAll standard indent (front ++ [';']) =
      start ++ (";\n".toList ++ indent)) ∧
    (∀ front, ';' ∉ front → applyAll standard indent (front ++ [';']) =
      edit (multiplied "u_mvp".toList) none
        (edit (returned "gl_FragColor".toList) none (front ++ [';'])) ++ '\n' :: indent) ∧
    ∀ body, ';' ∉ body →
      applyAll standard indent body = edit (returned "gl_FragColor".toList) none body := by
  have unended : ';' ∉ indent := fun mem => absurd (blank _ mem) (by decide)
  refine ⟨fun front back => ?_, fun body front back whole => ?_, fun front => ?_,
    fun front unendedFront => ?_,
    fun body unendedBody => applyAll_standard_of_unended unendedBody indent⟩
  · obtain ⟨statement, alone, whole⟩ := edit_returned_append isName_fragColor front back
    obtain ⟨same, aloneSame, ends⟩ := applyAll_standard_append_stop blank front
    obtain rfl := List.append_cancel_right (alone.symm.trans aloneSame)
    rw [ends, applyAll_standard, applyAll_standard, whole, edit_broken_append,
      edit_multiplied_append isName_mvp blank, dropSpaces_edit_returned isName_fragColor,
      List.append_assoc]
  · rw [applyAll_standard] at whole
    exact lined_edit_multiplied isName_mvp blank (lined_edit_broken unended _ _) front back whole
  · obtain ⟨statement, -, ends⟩ := applyAll_standard_append_stop blank front
    obtain ⟨start, kept, -⟩ := (signed_multiplied isName_mvp).edit_append_stop
      (keepsStops_multiplied isName_mvp) (edit (broken indent) none statement) []
    exact ⟨start, by rw [ends, kept, List.append_assoc]; rfl⟩
  · obtain ⟨statement, alone, ends⟩ := applyAll_standard_append_stop blank front
    have unendedStatement :=
      (keepsStops_returned isName_fragColor).unended_of_edit_append_stop alone unendedFront
    rw [ends, edit_broken_of_unended unendedStatement, alone]

/-- The character that is assigned may be the end of the statement itself. -/
theorem applyAll_standard_local_sample :
    AllBlank ['\t'] ∧
      applyAll standard ['\t'] "gl_FragColor = ;  p = u_mvp * f(a); q".toList =
        applyAll standard ['\t'] "gl_FragColor = ;".toList ++
          applyAll standard ['\t'] "p = u_mvp * f(a); q".toList ∧
      (∀ front back, applyAll standard ['\t'] "gl_FragColor = ;  p = u_mvp * f(a); q".toList =
        front ++ ';' :: back → "\n\t".toList <+: back) ∧
      ∃ start, applyAll standard ['\t'] "gl_FragColor = ;".toList = start ++ ";\n\t".toList := by
  have blank : AllBlank ['\t'] := by decide
  obtain ⟨apart, lines, ends, -⟩ := applyAll_standard_local blank
  exact ⟨blank, apart "gl_FragColor = ".toList "  p = u_mvp * f(a); q".toList,
    lines "gl_FragColor = ;  p = u_mvp * f(a); q".toList, ends "gl_FragColor = ".toList⟩

end CrossShade.Rule
