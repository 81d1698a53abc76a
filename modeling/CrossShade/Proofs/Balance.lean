import Mathlib.Data.List.Infix
import Mathlib.Data.Nat.PSub
import CrossShade.Enclosed

/-!
Balanced brackets. A text is balanced when no front of it closes more brackets than it
opens and the whole of it closes as many as it opens. `upToClose` finds the closing bracket
in front of which the text is balanced (`upToClose_eq_some_iff`), and it counts nothing but
brackets (`Balanced.of_brackets`). The count of open brackets never falls below zero in the
search (`countToClose_succ`), so that parameters and bodies are exactly what their brackets
enclose (`body?_params?_exact`).
-/

namespace CrossShade.Enclosed

/-- The text closes `depth` brackets more than it opens, and no front of it closes more than
that. -/
structure ClosesBy (opening closing : Char) (depth : Nat) (text : Text) : Prop where
  fronts : ∀ front, front <+: text → front.count closing ≤ front.count opening + depth
  whole : text.count closing = text.count opening + depth

/-- Every bracket that the text closes is one that it opened before, and it closes all that
it opened. -/
def Balanced (opening closing : Char) (text : Text) : Prop :=
  ClosesBy opening closing 0 text

instance (opening closing : Char) (text : Text) : Decidable (Balanced opening closing text) :=
  decidable_of_iff
    ((∀ front ∈ text.inits, front.count closing ≤ front.count opening + 0) ∧
      text.count closing = text.count opening + 0)
    ⟨fun h => ⟨fun front isFront => h.1 front ((List.mem_inits _ _).mpr isFront), h.2⟩,
      fun h => ⟨fun front mem => h.fronts front ((List.mem_inits _ _).mp mem), h.whole⟩⟩

/-! ### One character at a time -/

section Steps

variable {opening closing : Char} {depth : Nat} {text : Text}

@[simp] theorem closesBy_nil : ClosesBy opening closing depth [] ↔ depth = 0 := by
  constructor
  · intro h
    simpa using h.whole.symm
  · rintro rfl
    refine ⟨fun front isFront => ?_, rfl⟩
    simp [List.prefix_nil.mp isFront]

/-- The fronts of a longer text are the empty one and those behind its first character. -/
theorem fronts_cons_iff {c : Char} :
    (∀ front, front <+: c :: text → front.count closing ≤ front.count opening + depth) ↔
      ∀ front, front <+: text →
        (c :: front).count closing ≤ (c :: front).count opening + depth := by
  constructor
  · intro all front isFront
    exact all _ ((List.prefix_cons_inj c).mpr isFront)
  · intro all front isFront
    cases front with
    | nil => simp
    | cons d front =>
        obtain ⟨rfl, behind⟩ := List.cons_prefix_cons.mp isFront
        exact all front behind

theorem closesBy_cons {c : Char} :
    ClosesBy opening closing depth (c :: text) ↔
      (∀ front, front <+: text →
        (c :: front).count closing ≤ (c :: front).count opening + depth) ∧
      (c :: text).count closing = (c :: text).count opening + depth :=
  ⟨fun h => ⟨fronts_cons_iff.mp h.fronts, h.whole⟩,
    fun ⟨fronts, whole⟩ => ⟨fronts_cons_iff.mpr fronts, whole⟩⟩

theorem closesBy_cons_opening (differ : opening ≠ closing) :
    ClosesBy opening closing depth (opening :: text) ↔
      ClosesBy opening closing (depth + 1) text := by
  rw [closesBy_cons]
  simp only [List.count_cons_self, List.count_cons_of_ne differ]
  constructor
  · rintro ⟨fronts, whole⟩
    exact ⟨fun front isFront => by have := fronts front isFront; omega, by omega⟩
  · intro h
    exact ⟨fun front isFront => by have := h.fronts front isFront; omega,
      by have := h.whole; omega⟩

theorem not_closesBy_zero_cons_closing (differ : opening ≠ closing) :
    ¬ClosesBy opening closing 0 (closing :: text) := by
  intro h
  have first := h.fronts [closing] (List.prefix_append [closing] text)
  simp only [List.count_cons_self, List.count_cons_of_ne differ.symm, List.count_nil] at first
  omega

theorem closesBy_succ_cons_closing (differ : opening ≠ closing) :
    ClosesBy opening closing (depth + 1) (closing :: text) ↔
      ClosesBy opening closing depth text := by
  rw [closesBy_cons]
  simp only [List.count_cons_self, List.count_cons_of_ne differ.symm]
  constructor
  · rintro ⟨fronts, whole⟩
    exact ⟨fun front isFront => by have := fronts front isFront; omega, by omega⟩
  · intro h
    exact ⟨fun front isFront => by have := h.fronts front isFront; omega,
      by have := h.whole; omega⟩

theorem closesBy_cons_other {c : Char} (notOpening : c ≠ opening) (notClosing : c ≠ closing) :
    ClosesBy opening closing depth (c :: text) ↔ ClosesBy opening closing depth text := by
  rw [closesBy_cons]
  simp only [List.count_cons_of_ne notOpening, List.count_cons_of_ne notClosing]
  exact ⟨fun h => ⟨h.1, h.2⟩, fun h => ⟨h.fronts, h.whole⟩⟩

end Steps

/-- Of a balanced text in two parts both are balanced or neither is. -/
theorem Balanced.iff_of_append {opening closing : Char} {front back : Text}
    (whole : Balanced opening closing (front ++ back)) :
    Balanced opening closing front ↔ Balanced opening closing back := by
  have counts := whole.whole
  simp only [List.count_append] at counts
  constructor
  · intro balanced
    have closed := balanced.whole
    refine ⟨fun part isFront => ?_, by omega⟩
    have longer := whole.fronts _ ((List.prefix_append_right_inj front).mpr isFront)
    simp only [List.count_append] at longer
    omega
  · intro balanced
    have closed := balanced.whole
    exact ⟨fun part isFront => whole.fronts part (isFront.trans (List.prefix_append front back)),
      by omega⟩

/-! ### The closing bracket -/

section Search

variable {opening closing c : Char} {depth deeper : Nat} {text inner rest : Text}

theorem upToClose_zero_closing :
    upToClose opening closing 0 (closing :: text) = some ([], text) := by
  simp [upToClose]

theorem upToClose_succ_closing :
    upToClose opening closing (depth + 1) (closing :: text) =
      (upToClose opening closing depth text).map fun found => (closing :: found.1, found.2) := by
  simp [upToClose]

theorem upToClose_opening (differ : opening ≠ closing) :
    upToClose opening closing depth (opening :: text) =
      (upToClose opening closing (depth + 1) text).map
        fun found => (opening :: found.1, found.2) := by
  simp [upToClose, differ]

theorem upToClose_other (notOpening : c ≠ opening) (notClosing : c ≠ closing) :
    upToClose opening closing depth (c :: text) =
      (upToClose opening closing depth text).map fun found => (c :: found.1, found.2) := by
  simp [upToClose, notOpening, notClosing]

/-- What is found behind a character that the search goes on from. -/
theorem map_cons_eq_some_iff {found : Option (Text × Text)} (goesOn : c ≠ closing ∨ depth ≠ 0)
    (step : ∀ inside, ClosesBy opening closing depth (c :: inside) ↔
      ClosesBy opening closing deeper inside)
    (behind : ∀ inside, found = some (inside, rest) ↔
      text = inside ++ closing :: rest ∧ ClosesBy opening closing deeper inside) :
    found.map (fun found => (c :: found.1, found.2)) = some (inner, rest) ↔
      c :: text = inner ++ closing :: rest ∧ ClosesBy opening closing depth inner := by
  rw [Option.map_eq_some_iff]
  constructor
  · rintro ⟨⟨inside, later⟩, eq, same⟩
    obtain ⟨rfl, rfl⟩ := Prod.mk.inj same
    obtain ⟨rfl, closes⟩ := (behind inside).mp eq
    exact ⟨rfl, (step inside).mpr closes⟩
  · rintro ⟨eq, closes⟩
    cases inner with
    | nil =>
        -- The search would have ended at the first character.
        have isClose : c = closing := (List.cons.inj eq).1
        rcases goesOn with notClose | deep
        · exact absurd isClose notClose
        · exact absurd (closesBy_nil.mp closes) deep
    | cons d inside =>
        obtain ⟨rfl, tail⟩ := List.cons.inj eq
        exact ⟨(inside, rest), (behind inside).mpr ⟨tail, (step inside).mp closes⟩, rfl⟩

end Search

section Close

variable {opening closing : Char} {text inner rest : Text}

/-- **The enclosed text is the balanced one.** From inside `depth` further brackets the text
is taken up to a closing bracket in front of which it has closed exactly those. -/
theorem upToClose_eq_some_iff_closesBy (differ : opening ≠ closing) {depth : Nat} :
    upToClose opening closing depth text = some (inner, rest) ↔
      text = inner ++ closing :: rest ∧ ClosesBy opening closing depth inner := by
  induction text generalizing depth inner with
  | nil => simp [upToClose]
  | cons c text ih =>
      by_cases isClose : c = closing
      · subst isClose
        cases depth with
        | zero =>
            rw [upToClose_zero_closing, Option.some_inj, Prod.mk.injEq]
            constructor
            · rintro ⟨rfl, rfl⟩
              exact ⟨rfl, closesBy_nil.mpr rfl⟩
            · rintro ⟨eq, closes⟩
              cases inner with
              | nil => exact ⟨rfl, (List.cons.inj eq).2⟩
              | cons d inside =>
                  obtain ⟨rfl, -⟩ := List.cons.inj eq
                  exact absurd closes (not_closesBy_zero_cons_closing differ)
        | succ depth =>
            rw [upToClose_succ_closing]
            exact map_cons_eq_some_iff (Or.inr (Nat.succ_ne_zero depth))
              (fun _ => closesBy_succ_cons_closing differ) fun _ => ih
      · by_cases isOpen : c = opening
        · subst isOpen
          rw [upToClose_opening differ]
          exact map_cons_eq_some_iff (Or.inl isClose) (fun _ => closesBy_cons_opening differ)
            fun _ => ih
        · rw [upToClose_other isOpen isClose]
          exact map_cons_eq_some_iff (Or.inl isClose)
            (fun _ => closesBy_cons_other isOpen isClose) fun _ => ih

theorem upToClose_eq_some_iff (differ : opening ≠ closing) :
    upToClose opening closing 0 text = some (inner, rest) ↔
      text = inner ++ closing :: rest ∧ Balanced opening closing inner :=
  upToClose_eq_some_iff_closesBy differ

theorem map_upToClose_eq_some_iff (differ : opening ≠ closing) {tidy : Text → Text}
    {value : Text} :
    (upToClose opening closing 0 text).map (fun found => (tidy found.1, found.2))
        = some (value, rest) ↔
      ∃ inner, text = inner ++ closing :: rest ∧ Balanced opening closing inner ∧
        value = tidy inner := by
  rw [Option.map_eq_some_iff]
  constructor
  · rintro ⟨⟨inner, behind⟩, found, eq⟩
    obtain ⟨rfl, rfl⟩ := Prod.mk.inj eq
    obtain ⟨whole, balanced⟩ := (upToClose_eq_some_iff differ).mp found
    exact ⟨inner, whole, balanced, rfl⟩
  · rintro ⟨inner, whole, balanced, rfl⟩
    exact ⟨(inner, rest), (upToClose_eq_some_iff differ).mpr ⟨whole, balanced⟩, rfl⟩

/-- **No closing bracket is found** just if no front of the text closes more brackets than are open
in front of it. -/
theorem upToClose_eq_none_iff (differ : opening ≠ closing) {depth : Nat} :
    upToClose opening closing depth text = none ↔
      ∀ front, front <+: text → front.count closing ≤ front.count opening + depth := by
  induction text generalizing depth with
  | nil => simp [upToClose]
  | cons c text ih =>
      rw [fronts_cons_iff]
      by_cases isClose : c = closing
      · subst isClose
        simp only [List.count_cons_self, List.count_cons_of_ne differ.symm]
        cases depth with
        | zero =>
            have here : ¬∀ front, front <+: text → front.count c + 1 ≤ front.count opening + 0 :=
              fun all => absurd (all [] List.nil_prefix) (by simp)
            rw [upToClose_zero_closing]
            exact iff_of_false (Option.some_ne_none _) here
        | succ depth =>
            rw [upToClose_succ_closing, Option.map_eq_none_iff, ih]
            exact forall₂_congr fun front _ => by omega
      · simp only [List.count_cons_of_ne isClose]
        by_cases isOpen : c = opening
        · subst isOpen
          rw [upToClose_opening differ, Option.map_eq_none_iff, ih]
          simp only [List.count_cons_self]
          exact forall₂_congr fun front _ => by omega
        · simp only [List.count_cons_of_ne isOpen]
          rw [upToClose_other isOpen isClose, Option.map_eq_none_iff, ih]

/-- What was opened in front of the text stays open in it: no front of the text closes more
brackets than it opens. -/
def Unclosed (opening closing : Char) (text : Text) : Prop :=
  ∀ front, front <+: text → front.count closing ≤ front.count opening

theorem params?_eq_none_iff : params? text = none ↔ Unclosed '(' ')' text :=
  Option.map_eq_none_iff.trans (upToClose_eq_none_iff (by decide))

theorem body?_eq_none_iff : body? text = none ↔ Unclosed '{' '}' text :=
  Option.map_eq_none_iff.trans (upToClose_eq_none_iff (by decide))

theorem params?_eq_some_iff {params : Text} :
    params? text = some (params, rest) ↔
      ∃ inner, text = inner ++ ')' :: rest ∧ Balanced '(' ')' inner ∧
        params = Text.trimStart inner :=
  map_upToClose_eq_some_iff (by decide)

theorem body?_eq_some_iff {body : Text} :
    body? text = some (body, rest) ↔
      ∃ inner, text = inner ++ '}' :: rest ∧ Balanced '{' '}' inner ∧ body = Text.trim inner :=
  map_upToClose_eq_some_iff (by decide)

/-- **A text is cut in one way at most** at a closing bracket with balanced text in front of it. -/
theorem Balanced.cut_unique (differ : opening ≠ closing) {other behind : Text}
    (balanced : Balanced opening closing inner) (balancedOther : Balanced opening closing other)
    (same : inner ++ closing :: rest = other ++ closing :: behind) :
    inner = other ∧ rest = behind := by
  have found : upToClose opening closing 0 (inner ++ closing :: rest) = some (inner, rest) :=
    (upToClose_eq_some_iff differ).mpr ⟨rfl, balanced⟩
  have foundOther : upToClose opening closing 0 (inner ++ closing :: rest) = some (other, behind) :=
    (upToClose_eq_some_iff differ).mpr ⟨same, balancedOther⟩
  exact Prod.mk.inj (Option.some.inj (found.symm.trans foundOther))

end Close

/-! ### Counting open brackets -/

/-- The number of brackets that are open behind a character. There is no such number where a bracket
closes and none is open. -/
def openBehind? (opening closing : Char) (count : Nat) (c : Char) : Option Nat :=
  if c = closing then count.ppred
  else if c = opening then some (count + 1)
  else some count

/-- The text up to the bracket that lowers the count of open brackets to zero, and the text behind
it. The outer `none` tells that the count was to fall below zero, the inner one that the text ends
before the count comes to zero. -/
def countToClose (opening closing : Char) : Nat → Text → Option (Option (Text × Text))
  | _, [] => some none
  | count, c :: rest =>
      (openBehind? opening closing count c).bind fun count =>
        if c = closing ∧ count = 0 then some (some ([], rest))
        else (countToClose opening closing count rest).map fun found =>
          found.map fun (inner, behind) => (c :: inner, behind)

section Count

variable {opening closing : Char}

/-- **The count never falls below zero.** Started at the bracket in question and `depth` more, it
goes on to the end of the search and finds what is enclosed. -/
theorem countToClose_succ (depth : Nat) (text : Text) :
    countToClose opening closing (depth + 1) text =
      some (upToClose opening closing depth text) := by
  induction text generalizing depth with
  | nil => rfl
  | cons c text ih =>
      unfold countToClose upToClose openBehind?
      by_cases isClose : c = closing
      · cases depth with
        | zero => simp [isClose]
        | succ depth => simp [isClose, ih]
      · by_cases isOpen : c = opening
        · subst isOpen
          simp [isClose, ih]
        · simp [isClose, isOpen, ih]

end Count

/-! ### Exactly what is enclosed -/

/-- From behind an opening bracket, `enclosed` takes exactly what is enclosed, made tidy. -/
structure TakesEnclosed (opening closing : Char) (tidy : Text → Text)
    (enclosed : Text → Option (Text × Text)) : Prop where
  /-- What is taken is the balanced text in front of a closing bracket. -/
  eq_some_iff : ∀ text value rest, enclosed text = some (value, rest) ↔
    ∃ inner, text = inner ++ closing :: rest ∧ Balanced opening closing inner ∧ value = tidy inner
  /-- No text is cut in two ways. -/
  unique : ∀ inner other rest behind : Text,
    Balanced opening closing inner → Balanced opening closing other →
      inner ++ closing :: rest = other ++ closing :: behind → inner = other ∧ rest = behind
  /-- Nothing is taken just if the bracket stays open. -/
  eq_none_iff : ∀ text, enclosed text = none ↔ Unclosed opening closing text
  /-- Open brackets are counted, the one in question first, and the count never falls below
  zero. -/
  counted : ∀ text, ∃ found, countToClose opening closing 1 text = some found ∧
    enclosed text = found.map fun (inner, rest) => (tidy inner, rest)

theorem takesEnclosed {opening closing : Char} (differ : opening ≠ closing) (tidy : Text → Text) :
    TakesEnclosed opening closing tidy fun text =>
      (upToClose opening closing 0 text).map fun (inner, rest) => (tidy inner, rest) where
  eq_some_iff _ _ _ := map_upToClose_eq_some_iff differ
  unique _ _ _ _ balanced balancedOther := balanced.cut_unique differ balancedOther
  eq_none_iff _ := Option.map_eq_none_iff.trans (upToClose_eq_none_iff differ)
  counted text := ⟨upToClose opening closing 0 text, countToClose_succ 0 text, rfl⟩

/-- **Parameters and bodies are taken exactly**: up to the one bracket in front of which the text is
balanced, and not at all where no bracket closes more than was opened. -/
theorem body?_params?_exact :
    TakesEnclosed '{' '}' Text.trim body? ∧ TakesEnclosed '(' ')' Text.trimStart params? :=
  ⟨takesEnclosed (by decide) Text.trim, takesEnclosed (by decide) Text.trimStart⟩

/-! ### Brackets alone decide -/

/-- The brackets of a text, in order. -/
def brackets (opening closing : Char) (text : Text) : Text :=
  text.filter fun c => c == opening || c == closing

section Brackets

variable {opening closing : Char}

/-- What holds of neither bracket holds of no bracket. -/
theorem of_bracket {p : Char → Bool} (atOpening : p opening = false) (atClosing : p closing = false)
    (c : Char) (bracket : (c == opening || c == closing) = true) : p c = false := by
  rcases Bool.or_eq_true_iff.mp bracket with isOpening | isClosing
  · rw [beq_iff_eq.mp isOpening]
    exact atOpening
  · rw [beq_iff_eq.mp isClosing]
    exact atClosing

@[simp] theorem brackets_append (front back : Text) :
    brackets opening closing (front ++ back) =
      brackets opening closing front ++ brackets opening closing back :=
  List.filter_append _ _

theorem closesBy_brackets (differ : opening ≠ closing) {depth : Nat} {text : Text} :
    ClosesBy opening closing depth (brackets opening closing text) ↔
      ClosesBy opening closing depth text := by
  induction text generalizing depth with
  | nil => rfl
  | cons c text ih =>
      by_cases isOpen : c = opening
      · subst isOpen
        have keeps : brackets c closing (c :: text) = c :: brackets c closing text := by
          simp [brackets]
        rw [keeps, closesBy_cons_opening differ, closesBy_cons_opening differ, ih]
      · by_cases isClose : c = closing
        · subst isClose
          have keeps : brackets opening c (c :: text) = c :: brackets opening c text := by
            simp [brackets]
          rw [keeps]
          cases depth with
          | zero =>
              exact iff_of_false (not_closesBy_zero_cons_closing differ)
                (not_closesBy_zero_cons_closing differ)
          | succ depth =>
              rw [closesBy_succ_cons_closing differ, closesBy_succ_cons_closing differ, ih]
        · have drops : brackets opening closing (c :: text) = brackets opening closing text := by
            simp [brackets, isOpen, isClose]
          rw [drops, closesBy_cons_other isOpen isClose, ih]

/-- A text with the brackets of a balanced one is balanced. -/
theorem Balanced.of_brackets (differ : opening ≠ closing) {text other : Text}
    (same : brackets opening closing other = brackets opening closing text)
    (balanced : Balanced opening closing text) : Balanced opening closing other :=
  (closesBy_brackets differ).mp (same ▸ (closesBy_brackets differ).mpr balanced)

theorem balanced_congr (differ : opening ≠ closing) {text other : Text}
    (same : brackets opening closing other = brackets opening closing text) :
    Balanced opening closing other ↔ Balanced opening closing text :=
  ⟨Balanced.of_brackets differ same.symm, Balanced.of_brackets differ same⟩

theorem brackets_eq_nil {text : Text} (noOpening : opening ∉ text) (noClosing : closing ∉ text) :
    brackets opening closing text = [] := by
  rw [brackets, List.filter_eq_nil_iff]
  intro c mem
  simp only [Bool.or_eq_true, beq_iff_eq, not_or]
  exact ⟨fun eq => noOpening (eq ▸ mem), fun eq => noClosing (eq ▸ mem)⟩

/-- A text without brackets is balanced. -/
theorem Balanced.of_no_brackets (differ : opening ≠ closing) {text : Text}
    (noOpening : opening ∉ text) (noClosing : closing ∉ text) :
    Balanced opening closing text :=
  Balanced.of_brackets differ ((brackets_eq_nil noOpening noClosing).trans rfl)
    (closesBy_nil.mpr rfl)

end Brackets

end CrossShade.Enclosed
