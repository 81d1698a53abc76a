import CrossShade.Rule

/-!
Limits on the weight of patterns. A limit only refuses: a pattern that is read within a limit is
what it is without one, and it is refused just if it is well formed and the whole of it is too heavy.
The same holds of rules, whose patterns are all that is limited. What is quoted in a pattern weighs
as much as its bytes.

* `compile_limited`: what a limit does to the reading of a pattern.
* `make_limited`: what it does to the making of a rule.
* `Regex.weight_exactly`: a counted repetition is not lighter for being short to write.
* `Regex.weight_concat_chars_append`, `Regex.weight_literal`: the weights of characters in a row.
-/

namespace CrossShade

/-! ### Limits -/

theorem Pattern.compile_eq_bind (source : Text) (limit : Option Nat) :
    compile source limit = (lexemes source).bind fun row =>
      (row.foldlM Builder.step .start).bind (·.finish source limit) := rfl

theorem Pattern.Builder.finish_limited (builder : Builder) (source : Text) (limit : Option Nat) :
    builder.finish source limit = (builder.finish source none).bind fun pattern =>
      if pattern.regex.isTooHeavy limit then .error .tooHeavy else .ok pattern := by
  obtain ⟨scope, outer, groups, names⟩ := builder
  cases outer with
  | cons scope outer => rfl
  | nil =>
      simp only [Builder.finish]
      split
      · rfl
      · rfl

/-- **A limit only refuses**: a pattern for its weight, and what is no pattern for the cause for
which it is none. -/
theorem Pattern.compile_limited (source : Text) (limit : Option Nat) :
    compile source limit = (compile source none).bind fun pattern =>
      if pattern.regex.isTooHeavy limit then .error .tooHeavy else .ok pattern := by
  rw [compile_eq_bind, compile_eq_bind source none]
  cases lexemes source with
  | error cause => rfl
  | ok row =>
      simp only [Except.bind]
      cases row.foldlM Builder.step .start with
      | error cause => rfl
      | ok builder => exact builder.finish_limited source limit

/-- Of a rule only the pattern is limited. -/
theorem Rule.make_limited (name source replacement : Text) (limit : Option Nat) :
    make name source replacement limit = (make name source replacement none).bind fun rule =>
      if rule.pattern.regex.isTooHeavy limit then .error (.badPattern name .tooHeavy)
      else .ok rule := by
  rw [make, make, Pattern.compile_limited source limit]
  cases Pattern.compile source none with
  | error cause => rfl
  | ok pattern =>
      simp only [Except.bind]
      cases pattern.regex.isTooHeavy limit with
      | false => rfl
      | true => rfl

/-! ### Weights -/

theorem Text.byteLength_cons (c : Char) (text : Text) :
    byteLength (c :: text) = c.utf8Size + byteLength text := rfl

theorem Text.byteLength_replicate (count : Nat) (c : Char) :
    byteLength (List.replicate count c) = count * c.utf8Size := by
  induction count with
  | zero => exact (Nat.zero_mul _).symm
  | succ count ih => rw [List.replicate_succ, byteLength_cons, ih, Nat.succ_mul, Nat.add_comm]

namespace Pattern.Regex

variable {direction : Direction}

theorem weight_char (c : Char) : (char c).weight direction = 32 * c.utf8Size :=
  if_pos rfl

theorem weight_concat_cons (first : Regex) {row : List Regex} (more : row ≠ []) :
    (concat (first :: row)).weight direction =
      first.weight direction + (concat row).weight direction := by
  obtain ⟨second, rest, rfl⟩ := List.exists_cons_of_ne_nil more
  rfl

theorem weight_concat_replicate (count : Nat) (regex : Regex) :
    (concat (List.replicate (count + 1) regex)).weight direction =
      (count + 1) * regex.weight direction := by
  induction count with
  | zero => exact (Nat.one_mul _).symm
  | succ count ih =>
      rw [List.replicate_succ, weight_concat_cons _ (by simp), ih, Nat.succ_mul (count + 1),
        Nat.add_comm]

/-- **A counted repetition weighs what it weighs when it is written out.** -/
theorem weight_exactly (count : Nat) (regex : Regex) :
    (exactly count regex).weight direction =
      (concat (List.replicate count regex)).weight direction := by
  match count with
  | 0 => rfl
  | 1 => rfl
  | count + 2 =>
      have counted : exactly (count + 2) regex = .times true (count + 2) (some (count + 2)) regex :=
        rfl
      rw [weight_concat_replicate, counted, weight, if_neg (by simp), if_pos rfl, Nat.add_zero]

/-- **Characters in front of other parts weigh as much as their bytes.** -/
theorem weight_concat_chars_append (text : Text) {row : List Regex} (more : row ≠ []) :
    (concat (text.map char ++ row)).weight direction =
      32 * text.byteLength + (concat row).weight direction := by
  induction text with
  | nil => exact (Nat.zero_add _).symm
  | cons c text ih =>
      rw [List.map_cons, List.cons_append,
        weight_concat_cons _ (List.append_ne_nil_of_right_ne_nil _ more), ih, weight_char,
        Text.byteLength_cons, Nat.mul_add, Nat.add_assoc]

/-- So does a text by itself, but for the empty text, which takes a state. -/
theorem weight_literal (text : Text) :
    (literal text).weight direction = 32 * max 1 text.byteLength := by
  induction text with
  | nil => rfl
  | cons c text ih =>
      have whole := Text.byteLength_cons c text
      have size := c.utf8Size_pos
      cases text with
      | nil =>
          have alone : (literal [c]).weight direction = 32 * c.utf8Size := weight_char c
          have nothing : Text.byteLength [] = 0 := rfl
          omega
      | cons d text =>
          have later := Text.byteLength_cons d text
          have nextSize := d.utf8Size_pos
          have apart : (literal (c :: d :: text)).weight direction =
              (char c).weight direction + (literal (d :: text)).weight direction :=
            weight_concat_cons (char c) (List.cons_ne_nil _ _)
          rw [apart, weight_char, ih]
          omega

end Pattern.Regex

end CrossShade
