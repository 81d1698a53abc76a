import Mathlib.Data.List.TakeWhile
import CrossShade.Text

/-!
Blanks at the ends of a text. Trimming takes off whatever runs of blanks stand there, and
nothing else.
-/

namespace CrossShade.Text

/-! ### Conditions on all characters -/

/-- A condition on a text is checked for its own characters, not for all characters there are. -/
instance decidableForall (p : Char → Prop) [DecidablePred p] (text : Text) :
    Decidable (∀ c ∈ text, p c) :=
  List.decidableBAll p text

instance decidableForallFirst (p : Char → Prop) [DecidablePred p] (first : Option Char) :
    Decidable (∀ c ∈ first, p c) :=
  Option.decidableForallMem first

/-- Nothing but blanks. -/
def AllBlank (text : Text) : Prop :=
  ∀ c ∈ text, isBlank c = true

instance (text : Text) : Decidable (AllBlank text) :=
  inferInstanceAs (Decidable (∀ c ∈ text, isBlank c = true))

@[simp] theorem allBlank_nil : AllBlank [] := by
  simp [AllBlank]

theorem allBlank_append {front back : Text} :
    AllBlank (front ++ back) ↔ AllBlank front ∧ AllBlank back := by
  simp only [AllBlank, List.mem_append]
  exact ⟨fun h => ⟨fun c mem => h c (Or.inl mem), fun c mem => h c (Or.inr mem)⟩,
    fun h c mem => mem.elim (h.1 c) (h.2 c)⟩

/-- No character of an identifier is a blank. -/
theorem not_blank_of_identifierChar {c : Char} (letter : isIdentifierChar c = true) :
    isBlank c = false := by
  have between : ∀ {low high : UInt32}, 48 ≤ low.toNat → high.toNat ≤ 122 →
      low ≤ c.val ∧ c.val ≤ high → 48 ≤ c.toNat ∧ c.toNat ≤ 122 := by
    rintro low high lowest highest ⟨above, below⟩
    exact ⟨lowest.trans (UInt32.le_iff_toNat_le.mp above),
      (UInt32.le_iff_toNat_le.mp below).trans highest⟩
  have range : 48 ≤ c.toNat ∧ c.toNat ≤ 122 := by
    have cases : (decide ('A'.val ≤ c.val ∧ c.val ≤ 'Z'.val) ||
        (decide ('a'.val ≤ c.val) && decide (c.val ≤ 'z'.val)) || c.isDigit || c == '_') = true :=
      letter
    simp only [Bool.or_eq_true, Bool.and_eq_true, decide_eq_true_eq, beq_iff_eq] at cases
    rcases cases with ((upper | lower) | digit) | rfl
    · exact between (by decide) (by decide) upper
    · exact between (by decide) (by decide) lower
    · obtain ⟨above, below⟩ := Char.isDigit_iff_toNat.mp digit
      exact ⟨above, below.trans (by decide)⟩
    · decide
  simp only [isBlank, Ranges.has, blankRanges, List.any_cons, List.any_nil, Bool.or_false,
    Bool.or_eq_false_iff, Bool.and_eq_false_iff, decide_eq_false_iff_not]
  omega

/-! ### Leading blanks -/

theorem trimStart_eq_nil_iff {text : Text} : trimStart text = [] ↔ AllBlank text :=
  List.dropWhile_eq_nil_iff

theorem trimStart_append_of_allBlank {gap : Text} (blank : AllBlank gap) (text : Text) :
    trimStart (gap ++ text) = trimStart text := by
  rw [trimStart, List.dropWhile_append, List.dropWhile_eq_nil_iff.mpr blank]
  rfl

theorem trimStart_cons_of_not_blank {c : Char} {text : Text} (solid : isBlank c = false) :
    trimStart (c :: text) = c :: text := by
  simp [trimStart, solid]

/-- The text is its leading blanks and then what is left of it. -/
theorem exists_gap_append_trimStart (text : Text) :
    ∃ gap, AllBlank gap ∧ text = gap ++ trimStart text :=
  ⟨text.takeWhile isBlank, fun _ mem => List.mem_takeWhile_imp mem,
    List.takeWhile_append_dropWhile.symm⟩

/-- What is left of a text does not begin with a blank. -/
theorem not_blank_of_trimStart_eq_cons {text rest : Text} {c : Char}
    (left : trimStart text = c :: rest) : isBlank c = false := by
  have first := List.head?_dropWhile_not isBlank text
  have left' : text.dropWhile isBlank = c :: rest := left
  rw [left'] at first
  simpa using first

@[simp] theorem trimStart_trimStart (text : Text) :
    trimStart (trimStart text) = trimStart text := by
  cases left : trimStart text with
  | nil => rfl
  | cons c rest => exact trimStart_cons_of_not_blank (not_blank_of_trimStart_eq_cons left)

/-! ### Both ends -/

theorem trimEnd_append_of_allBlank {gap text : Text} (blank : AllBlank gap) :
    trimEnd (text ++ gap) = trimEnd text := by
  have reversed : AllBlank gap.reverse := fun c mem => blank c (List.mem_reverse.mp mem)
  have ends := trimStart_append_of_allBlank reversed text.reverse
  simp only [trimStart] at ends
  rw [trimEnd, List.reverse_append, ends, trimEnd]

theorem trim_of_allBlank {text : Text} (blank : AllBlank text) : trim text = [] := by
  rw [trim, trimStart_eq_nil_iff.mpr blank]
  rfl

/-- Blanks around a text make no difference to what is left of it. -/
theorem trim_append_append {before text behind : Text} (blankBefore : AllBlank before)
    (blankBehind : AllBlank behind) : trim (before ++ text ++ behind) = trim text := by
  rw [List.append_assoc, trim, trimStart_append_of_allBlank blankBefore]
  cases left : trimStart text with
  | nil =>
      have blank := trimStart_eq_nil_iff.mp left
      have all : AllBlank (text ++ behind) := allBlank_append.mpr ⟨blank, blankBehind⟩
      rw [trimStart_eq_nil_iff.mpr all, trim_of_allBlank blank]
      rfl
  | cons c rest =>
      have whole : trimStart (text ++ behind) = trimStart text ++ behind := by
        rw [trimStart, List.dropWhile_append]
        simp only [trimStart] at left
        simp [left, trimStart]
      rw [whole, trimEnd_append_of_allBlank blankBehind, trim]

/-! ### What trimming keeps -/

theorem trimStart_suffix (text : Text) : trimStart text <:+ text :=
  List.dropWhile_suffix _

theorem trim_infix (text : Text) : trim text <:+: text := by
  have front : trim text <+: trimStart text := by
    rw [trim, trimEnd, ← List.reverse_suffix, List.reverse_reverse]
    exact List.dropWhile_suffix _
  exact front.isInfix.trans (trimStart_suffix text).isInfix

section Kept

variable {p : Char → Bool} (solid : ∀ c, p c = true → isBlank c = false)

include solid

theorem filter_trimStart (text : Text) : (trimStart text).filter p = text.filter p := by
  obtain ⟨gap, blank, whole⟩ := exists_gap_append_trimStart text
  have dropped : gap.filter p = [] := by
    rw [List.filter_eq_nil_iff]
    intro c mem kept
    have both := (solid c kept).symm.trans (blank c mem)
    cases both
  have kept := congrArg (List.filter p) whole
  rw [List.filter_append, dropped, List.nil_append] at kept
  exact kept.symm

/-- Trimming keeps all characters but blanks, in their order. -/
theorem filter_trim (text : Text) : (trim text).filter p = text.filter p := by
  have ends := filter_trimStart solid (trimStart text).reverse
  have reversed := congrArg List.reverse ends
  rw [← List.filter_reverse, ← List.filter_reverse, List.reverse_reverse] at reversed
  exact reversed.trans (filter_trimStart solid text)

end Kept

end CrossShade.Text
