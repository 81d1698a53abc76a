import CrossShade.Text

/-!
Text between brackets. From behind an opening bracket the text is taken up to the bracket
that closes it; brackets of the same sort in between have to balance, and all other
characters count for nothing.
-/

namespace CrossShade.Enclosed

/-- The text before the closing bracket and the text behind it, if there is one. `depth`
more brackets are open than the one in question. -/
def upToClose (opening closing : Char) : Nat → Text → Option (Text × Text)
  | _, [] => none
  | depth, c :: rest =>
      if c = closing then
        match depth with
        | 0 => some ([], rest)
        | depth + 1 =>
            (upToClose opening closing depth rest).map fun (inner, behind) => (c :: inner, behind)
      else if c = opening then
        (upToClose opening closing (depth + 1) rest).map fun (inner, behind) => (c :: inner, behind)
      else
        (upToClose opening closing depth rest).map fun (inner, behind) => (c :: inner, behind)

/-- A parameter list from behind its parenthesis, without leading blanks, and the rest. -/
def params? (text : Text) : Option (Text × Text) :=
  (upToClose '(' ')' 0 text).map fun (inner, rest) => (Text.trimStart inner, rest)

/-- A function body from behind its brace, trimmed, and the rest. -/
def body? (text : Text) : Option (Text × Text) :=
  (upToClose '{' '}' 0 text).map fun (inner, rest) => (Text.trim inner, rest)

/-- The text is the enclosed part, the closing bracket and the rest. -/
theorem upToClose_append {opening closing : Char} {depth : Nat} {text inner rest : Text}
    (found : upToClose opening closing depth text = some (inner, rest)) :
    text = inner ++ closing :: rest := by
  induction text generalizing depth inner with
  | nil => simp [upToClose] at found
  | cons c text ih =>
      unfold upToClose at found
      split at found
      · next isClose =>
          split at found
          · simp only [Option.some.injEq, Prod.mk.injEq] at found
            simp [← found.1, ← found.2, isClose]
          · obtain ⟨⟨inside, behind⟩, step, eq⟩ := Option.map_eq_some_iff.mp found
            simp only [Prod.mk.injEq] at eq
            rw [ih (eq.2 ▸ step), ← eq.1]
            rfl
      · split at found <;>
        · obtain ⟨⟨inside, behind⟩, step, eq⟩ := Option.map_eq_some_iff.mp found
          simp only [Prod.mk.injEq] at eq
          rw [ih (eq.2 ▸ step), ← eq.1]
          rfl

/-- What lies behind the closing bracket is a suffix of the text. -/
theorem upToClose_suffix {opening closing : Char} {depth : Nat} {text inner rest : Text}
    (found : upToClose opening closing depth text = some (inner, rest)) : rest <:+ text := by
  rw [upToClose_append found]
  exact (List.suffix_cons closing rest).trans (List.suffix_append inner _)

theorem params?_suffix {text params rest : Text} (found : params? text = some (params, rest)) :
    rest <:+ text := by
  obtain ⟨⟨inner, behind⟩, step, eq⟩ := Option.map_eq_some_iff.mp found
  simp only [Prod.mk.injEq] at eq
  exact eq.2 ▸ upToClose_suffix step

theorem body?_suffix {text body rest : Text} (found : body? text = some (body, rest)) :
    rest <:+ text := by
  obtain ⟨⟨inner, behind⟩, step, eq⟩ := Option.map_eq_some_iff.mp found
  simp only [Prod.mk.injEq] at eq
  exact eq.2 ▸ upToClose_suffix step

end CrossShade.Enclosed
