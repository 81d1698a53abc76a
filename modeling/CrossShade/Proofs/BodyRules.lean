import CrossShade.Proofs.Balance
import CrossShade.Proofs.Unmarked
import CrossShade.Settings

/-!
What the standard rules leave alone. Each of them replaces a match by a text with the same
braces, which makes no mark with what stands around it; so a body that went through all of them
has the braces it had before, and no marks if it had none (`brackets_applyAll`,
`unmarked_applyAll`).

The argument is made for one match at a time (`Gentle`), and a whole replacement follows by
induction on how it came about.
-/

namespace CrossShade

open CrossShade.Comment CrossShade.Enclosed

/-! ### Plain texts -/

/-- A text without the brackets that makes no marks. -/
def Plain (opening closing : Char) (text : Text) : Prop :=
  ∀ c ∈ text, Neutral c ∧ c ≠ opening ∧ c ≠ closing

instance (opening closing : Char) (text : Text) : Decidable (Plain opening closing text) :=
  inferInstanceAs (Decidable (∀ c ∈ text, Neutral c ∧ c ≠ opening ∧ c ≠ closing))

section Plain

variable {opening closing : Char} {front back text : Text}

theorem plain_append :
    Plain opening closing (front ++ back) ↔
      Plain opening closing front ∧ Plain opening closing back := by
  simp only [Plain, List.mem_append]
  constructor
  · intro all
    exact ⟨fun c mem => all c (Or.inl mem), fun c mem => all c (Or.inr mem)⟩
  · rintro ⟨allFront, allBack⟩ c (mem | mem)
    · exact allFront c mem
    · exact allBack c mem

theorem plain_cons {c : Char} :
    Plain opening closing (c :: text) ↔
      (Neutral c ∧ c ≠ opening ∧ c ≠ closing) ∧ Plain opening closing text :=
  List.forall_mem_cons

theorem Plain.brackets_eq_nil (plain : Plain opening closing text) :
    brackets opening closing text = [] :=
  Enclosed.brackets_eq_nil (fun mem => (plain _ mem).2.1 rfl) (fun mem => (plain _ mem).2.2 rfl)

theorem Plain.balanced (differ : opening ≠ closing) (plain : Plain opening closing text) :
    Balanced opening closing text :=
  Balanced.of_no_brackets differ (fun mem => (plain _ mem).2.1 rfl)
    (fun mem => (plain _ mem).2.2 rfl)

theorem Plain.unmarked_append (plain : Plain opening closing front) :
    Unmarked (front ++ back) ↔ Unmarked back :=
  Comment.unmarked_append fun c mem => (plain c mem).1

end Plain

end CrossShade

namespace CrossShade.Rule

open CrossShade.Pattern CrossShade.Comment CrossShade.Enclosed

/-! ### Gentle replacements -/

/-- The value can stand for the text that was taken: it has the same braces, and it makes no
mark where the text made none, whatever becomes of the rest. -/
structure Gentle (taken value : Text) : Prop where
  braces : brackets '{' '}' value = brackets '{' '}' taken
  starts : ∃ c behind, value = c :: behind ∧ Neutral c
  quiet : ∀ {rest result : Text},
    (∀ c, List.IsChain Quiet (c :: rest) → List.IsChain Quiet (c :: result)) →
    Unmarked (taken ++ rest) → Unmarked (value ++ result)

/-- All values of the matches of a pattern are gentle. -/
def GentleAll (regex : Regex) (value : Match → Text) : Prop :=
  ∀ {cursor : Cursor} {taken rest : Text} {captures : List Capture},
    cursor.rest = taken ++ rest →
    regex.Matches ⟨cursor, []⟩ ⟨cursor.advance taken rest, captures⟩ →
    Gentle taken (value ⟨taken, captures⟩)

section Rewritten

variable {regex : Regex} {value : Match → Text} {text result : Text}

theorem brackets_of_rewrites (gentle : GentleAll regex value)
    (rewrites : Rewrites regex value text result) :
    brackets '{' '}' result = brackets '{' '}' text := by
  induction rewrites with
  | done => rfl
  | @kept c rest result _ ih =>
      rw [← List.singleton_append, ← List.singleton_append (l := rest), brackets_append,
        brackets_append, ih]
  | replaced here matched _ ih =>
      rw [brackets_append, brackets_append, ih, (gentle here matched).braces]

/-- Behind any character at all, the result makes no mark where the text made none. -/
theorem isChain_of_rewrites (gentle : GentleAll regex value)
    (rewrites : Rewrites regex value text result) (c : Char)
    (chain : List.IsChain Quiet (c :: text)) : List.IsChain Quiet (c :: result) := by
  induction rewrites generalizing c with
  | done => exact chain
  | @kept d rest result _ ih =>
      obtain ⟨quiet, chain⟩ := List.isChain_cons_cons.mp chain
      exact List.isChain_cons_cons.mpr ⟨quiet, ih d chain⟩
  | @replaced cursor taken rest result captures here matched _ ih =>
      have replaced := gentle here matched
      have unmarked := unmarked_iff_isChain.mpr (isChain_behind (by decide) chain)
      have behind := unmarked_iff_isChain.mp (replaced.quiet ih unmarked)
      obtain ⟨d, later, eq, neutral⟩ := replaced.starts
      rw [eq] at behind ⊢
      exact List.isChain_cons_cons.mpr ⟨neutral.quiet, (List.isChain_cons_cons.mp behind).2⟩

theorem unmarked_of_rewrites (gentle : GentleAll regex value)
    (rewrites : Rewrites regex value text result) (unmarked : Unmarked text) : Unmarked result :=
  unmarked_iff_isChain.mpr
    (isChain_of_rewrites gentle rewrites ' ' (unmarked_iff_isChain.mp unmarked))

end Rewritten

/-! ### The patterns of the rules -/

/-- Any number of spaces. -/
def spaces : Regex :=
  .span true (.single ' ')

/-- An assignment to `target`, with the first character of what is assigned. -/
def assignment (target : Text) : Regex :=
  .concat (.anchor .wordEdge ::
    (target.map .char ++ [spaces, .char '=', spaces, .group 1 (.set (.except '='))]))

/-- The end of a statement with the spaces behind it. -/
def statementEnd : Regex :=
  .concat [.char ';', spaces]

/-- A product with `matrix` on the left, up to the end of the statement. -/
def product (matrix : Text) : Regex :=
  .concat [.anchor .wordEdge, .group 1 (.literal matrix), spaces, .char '*', spaces,
    .group 2 (.span false (.except '\n')), .char ';']

/-- The standard rules, with their patterns read. -/
theorem standard_eq :
    standard = [
      ⟨assignToReturnName, ⟨"\\bgl_FragColor *= *([^=])".toList,
        assignment "gl_FragColor".toList, []⟩, "return $\x7b1\x7d".toList⟩,
      ⟨breakStatementsName, ⟨"; *".toList, statementEnd, []⟩, ";\n".toList ++ indentMark⟩,
      ⟨matrixMultiplyName, ⟨"\\b(u_mvp) *\\* *(.*?);".toList,
        product "u_mvp".toList, []⟩, "mul( $\x7b2\x7d, $\x7b1\x7d );".toList⟩] := by
  decide +kernel

section Shapes

variable {cursor : Cursor} {taken rest : Text} {captures : List Capture}

theorem spaces_matches {start stop : Thread} (matched : spaces.Matches start stop) :
    ∃ gap rest, start.cursor.rest = gap ++ rest ∧ (∀ c ∈ gap, c = ' ') ∧
      stop = ⟨start.cursor.advance gap rest, start.captures⟩ := by
  obtain ⟨gap, rest, here, members, eq⟩ := matched
  exact ⟨gap, rest, here, fun c mem => CharSet.has_single.mp (members c mem), eq⟩

/-- A sign with spaces around it, in front of other items. -/
theorem sign_matches {sign : Char} {items : List Regex} {start stop : Thread}
    (matched : (Regex.concat (spaces :: .char sign :: spaces :: items)).Matches start stop) :
    ∃ before behind rest, start.cursor.rest = before ++ sign :: (behind ++ rest) ∧
      (∀ c ∈ before ++ behind, c = ' ') ∧
      (Regex.concat items).Matches
        ⟨start.cursor.advance (before ++ sign :: behind) rest, start.captures⟩ stop := by
  obtain ⟨_, gap, matched⟩ := Regex.concat_cons_matches.mp matched
  obtain ⟨before, afterBefore, hereBefore, blankBefore, rfl⟩ := spaces_matches gap
  obtain ⟨_, mark, matched⟩ := Regex.concat_cons_matches.mp matched
  obtain ⟨afterSign, hereSign, rfl⟩ := Regex.char_matches.mp mark
  obtain ⟨_, gap, matched⟩ := Regex.concat_cons_matches.mp matched
  obtain ⟨behind, rest, hereBehind, blankBehind, rfl⟩ := spaces_matches gap
  have place : start.cursor.advance (before ++ sign :: behind) rest =
      ((start.cursor.advance before afterBefore).step sign afterSign).advance behind rest := by
    rw [Cursor.step_advance, Cursor.advance_advance]
  simp only [Thread.step, Cursor.step, Cursor.advance] at hereSign hereBehind
  subst hereSign hereBehind
  refine ⟨before, behind, rest, hereBefore, ?_, ?_⟩
  · exact List.forall_mem_append.mpr ⟨blankBefore, blankBehind⟩
  · rw [place]
    exact matched

/-- What an assignment takes, and what its group has matched. -/
theorem assignment_shape {target : Text} (here : cursor.rest = taken ++ rest)
    (matched : (assignment target).Matches ⟨cursor, []⟩ ⟨cursor.advance taken rest, captures⟩) :
    ∃ before behind c, (∀ d ∈ before ++ behind, d = ' ') ∧
      taken = target ++ before ++ '=' :: behind ++ [c] ∧
      Match.group? ⟨taken, captures⟩ 1 = some [c] := by
  obtain ⟨_, ⟨-, rfl⟩, matched⟩ := Regex.concat_cons_matches.mp matched
  obtain ⟨_, name, matched⟩ := Regex.concat_append_matches.mp matched
  obtain ⟨afterTarget, hereTarget, rfl⟩ := Regex.literal_matches.mp name
  obtain ⟨before, behind, _, hereSign, blank, matched⟩ := sign_matches matched
  obtain ⟨_, ⟨c, later, hereLast, -, rfl⟩, eq⟩ := matched
  simp only [Thread.step, Thread.close, Cursor.step, Cursor.advance, Thread.mk.injEq,
    Cursor.mk.injEq] at eq hereTarget hereSign hereLast
  obtain ⟨⟨-, -, rfl⟩, rfl⟩ := eq
  subst hereLast hereSign
  refine ⟨before, behind, c, blank, ?_, ?_⟩
  · refine List.append_cancel_right (here.symm.trans (hereTarget.trans ?_))
    simp
  · simp [Match.group?, Capture.text, Cursor.textTo]

theorem statementEnd_shape (here : cursor.rest = taken ++ rest)
    (matched : statementEnd.Matches ⟨cursor, []⟩ ⟨cursor.advance taken rest, captures⟩) :
    ∃ behind, (∀ d ∈ behind, d = ' ') ∧ taken = ';' :: behind := by
  obtain ⟨_, stop, matched⟩ := Regex.concat_cons_matches.mp matched
  obtain ⟨afterStop, hereStop, rfl⟩ := Regex.char_matches.mp stop
  obtain ⟨behind, afterBehind, hereBehind, blankBehind, eq⟩ := spaces_matches matched
  simp only [Thread.step, Cursor.step, Cursor.advance, Thread.mk.injEq, Cursor.mk.injEq]
    at eq hereStop hereBehind
  obtain ⟨⟨-, -, rfl⟩, -⟩ := eq
  subst hereBehind
  exact ⟨behind, blankBehind, List.append_cancel_right (here.symm.trans hereStop)⟩

/-- What a product takes, and what its groups have matched. -/
theorem product_shape {matrix : Text} (here : cursor.rest = taken ++ rest)
    (matched : (product matrix).Matches ⟨cursor, []⟩ ⟨cursor.advance taken rest, captures⟩) :
    ∃ before behind operand, (∀ d ∈ before ++ behind, d = ' ') ∧
      taken = matrix ++ before ++ '*' :: behind ++ operand ++ [';'] ∧
      Match.group? ⟨taken, captures⟩ 1 = some matrix ∧
      Match.group? ⟨taken, captures⟩ 2 = some operand := by
  obtain ⟨_, ⟨-, rfl⟩, matched⟩ := Regex.concat_cons_matches.mp matched
  obtain ⟨_, ⟨_, name, rfl⟩, matched⟩ := Regex.concat_cons_matches.mp matched
  obtain ⟨afterMatrix, hereMatrix, rfl⟩ := Regex.literal_matches.mp name
  obtain ⟨before, behind, _, hereSign, blank, matched⟩ := sign_matches matched
  obtain ⟨_, ⟨_, ⟨operand, afterOperand, hereOperand, -, rfl⟩, rfl⟩, stop⟩ :=
    Regex.concat_cons_matches.mp matched
  obtain ⟨later, hereStop, eq⟩ := Regex.char_matches.mp stop
  simp only [Thread.step, Thread.close, Cursor.step, Cursor.advance, Thread.mk.injEq,
    Cursor.mk.injEq] at eq hereMatrix hereSign hereOperand hereStop
  obtain ⟨⟨-, -, rfl⟩, rfl⟩ := eq
  subst hereStop hereOperand hereSign
  refine ⟨before, behind, operand, blank, ?_, ?_, ?_⟩
  · refine List.append_cancel_right (here.symm.trans (hereMatrix.trans ?_))
    simp
  · simp [Match.group?, Capture.text, Cursor.textTo, hereMatrix]
  · simp [Match.group?, Capture.text, Cursor.textTo]

end Shapes

/-! ### The standard rules are gentle -/

theorem plain_of_spaces {gap : Text} (blank : ∀ c ∈ gap, c = ' ') : Plain '{' '}' gap := by
  intro c mem
  rw [blank c mem]
  decide

theorem expand_return (found : Match) :
    Template.expand [] "return $\x7b1\x7d".toList found =
      "return ".toList ++ (found.group? 1).getD [] := by
  have segments : Template.segments "return $\x7b1\x7d".toList =
      "return ".toList.map .char ++ [.reference ['1']] := by decide
  have number : Template.groupNumber? ['1'] = some 1 := by decide
  rw [Template.expand, segments]
  simp [Template.Segment.fill, Template.resolve, number]

theorem expand_break (found : Match) :
    Template.expand [] ";\n\t".toList found = ";\n\t".toList := by
  have segments : Template.segments ";\n\t".toList = ";\n\t".toList.map .char := by decide
  rw [Template.expand, segments]
  simp [Template.Segment.fill]

theorem expand_mul (found : Match) :
    Template.expand [] "mul( $\x7b2\x7d, $\x7b1\x7d );".toList found =
      "mul( ".toList ++ ((found.group? 2).getD [] ++
        ',' :: ' ' :: ((found.group? 1).getD [] ++ " );".toList)) := by
  have segments : Template.segments "mul( $\x7b2\x7d, $\x7b1\x7d );".toList =
      "mul( ".toList.map .char ++ (.reference ['2'] :: ", ".toList.map .char) ++
        (.reference ['1'] :: " );".toList.map .char) := by decide
  have one : Template.groupNumber? ['1'] = some 1 := by decide
  have two : Template.groupNumber? ['2'] = some 2 := by decide
  rw [Template.expand, segments]
  simp [Template.Segment.fill, Template.resolve, one, two]

/-- A return keeps what is assigned. -/
theorem gentleAll_assignment {target : Text} (plain : Plain '{' '}' target) :
    GentleAll (assignment target) (Template.expand [] "return $\x7b1\x7d".toList) := by
  intro cursor taken rest captures here matched
  obtain ⟨before, behind, c, blank, eq, group⟩ := assignment_shape here matched
  rw [expand_return, group, Option.getD_some]
  -- Everything in front of the character that is assigned is plain.
  have front : Plain '{' '}' (target ++ before ++ '=' :: behind) := by
    obtain ⟨plainBefore, plainBehind⟩ := plain_append.mp (plain_of_spaces blank)
    exact plain_append.mpr ⟨plain_append.mpr ⟨plain, plainBefore⟩,
      plain_cons.mpr ⟨by decide, plainBehind⟩⟩
  have value : Plain '{' '}' "return ".toList := by decide
  refine ⟨?_, ⟨'r', _, rfl, by decide⟩, ?_⟩
  · rw [eq, brackets_append, brackets_append, front.brackets_eq_nil, value.brackets_eq_nil]
  · intro rest result follows unmarked
    rw [eq, List.append_assoc, front.unmarked_append] at unmarked
    rw [List.append_assoc, value.unmarked_append]
    obtain ⟨quiet, chain⟩ := List.isChain_cons_cons.mp (unmarked_iff_isChain.mp unmarked)
    exact unmarked_iff_isChain.mpr (List.isChain_cons_cons.mpr ⟨quiet, follows c chain⟩)

/-- A line break takes the place of spaces. -/
theorem gentleAll_statementEnd :
    GentleAll statementEnd (Template.expand [] ";\n\t".toList) := by
  intro cursor taken rest captures here matched
  obtain ⟨behind, blank, eq⟩ := statementEnd_shape here matched
  rw [expand_break]
  have stop : Plain '{' '}' (';' :: behind) :=
    plain_cons.mpr ⟨by decide, plain_of_spaces blank⟩
  have value : Plain '{' '}' ";\n\t".toList := by decide
  refine ⟨?_, ⟨';', _, rfl, by decide⟩, ?_⟩
  · rw [eq, stop.brackets_eq_nil, value.brackets_eq_nil]
  · intro rest result follows unmarked
    rw [eq, stop.unmarked_append] at unmarked
    rw [value.unmarked_append]
    exact unmarked_iff_isChain.mpr (follows ' ' (unmarked_iff_isChain.mp unmarked))

/-- A call of `mul` keeps the operand. -/
theorem gentleAll_product {matrix : Text} (plain : Plain '{' '}' matrix) :
    GentleAll (product matrix)
      (Template.expand [] "mul( $\x7b2\x7d, $\x7b1\x7d );".toList) := by
  intro cursor taken rest captures here matched
  obtain ⟨before, behind, operand, blank, eq, name, group⟩ := product_shape here matched
  rw [expand_mul, name, group, Option.getD_some, Option.getD_some]
  have opening : Plain '{' '}' "mul( ".toList := by decide
  have closing : Plain '{' '}' " );".toList := by decide
  have blanks := plain_of_spaces blank
  refine ⟨?_, ⟨'m', _, rfl, by decide⟩, ?_⟩
  · have gaps := blanks.brackets_eq_nil
    rw [brackets_append, List.append_eq_nil_iff] at gaps
    have sign : brackets '{' '}' ('*' :: behind) = [] := gaps.2
    have stop : brackets '{' '}' [';'] = [] := rfl
    have comma : brackets '{' '}' (',' :: ' ' :: (matrix ++ " );".toList)) = [] := by
      have name : brackets '{' '}' (matrix ++ " );".toList) = [] := by
        rw [brackets_append, plain.brackets_eq_nil, closing.brackets_eq_nil]
        rfl
      exact name
    simp only [eq, brackets_append, opening.brackets_eq_nil, comma, plain.brackets_eq_nil, gaps.1,
      sign, stop, List.nil_append, List.append_nil]
  · intro rest result follows unmarked
    have parts : Unmarked (operand ++ ';' :: rest) := by
      refine unmarked.of_infix (List.IsSuffix.isInfix ?_)
      exact ⟨matrix ++ before ++ '*' :: behind, by simp [eq]⟩
    obtain ⟨operandQuiet, restQuiet⟩ := (unmarked_append_cons (by decide)).mp parts
    have resultQuiet := unmarked_iff_isChain.mpr (follows ' ' (unmarked_iff_isChain.mp restQuiet))
    simp only [List.append_assoc, List.cons_append]
    rw [opening.unmarked_append, unmarked_append_cons (by decide), unmarked_cons (by decide),
      plain.unmarked_append, closing.unmarked_append]
    exact ⟨operandQuiet, resultQuiet⟩

/-! ### All rules one after another -/

/-- The rule keeps the braces of a body, and the body free of marks. -/
structure IsGentle (rule : Rule) (indent : Text) : Prop where
  braces : ∀ body, brackets '{' '}' (rule.apply indent body) = brackets '{' '}' body
  quiet : ∀ body, Unmarked body → Unmarked (rule.apply indent body)

theorem IsGentle.of_gentleAll {rule : Rule} {indent : Text}
    (gentle : GentleAll rule.pattern.regex
      (Template.expand rule.pattern.names (rule.template indent))) : rule.IsGentle indent where
  braces body := brackets_of_rewrites gentle (replaceAll_rewrites _ _ body)
  quiet body := unmarked_of_rewrites gentle (replaceAll_rewrites _ _ body)

theorem standard_isGentle : ∀ rule ∈ standard, rule.IsGentle ['\t'] := by
  rw [standard_eq]
  have breaks : Text.replaceAll indentMark (Template.escape ['\t']) (";\n".toList ++ indentMark) =
      ";\n\t".toList := by decide
  intro rule mem
  simp only [List.mem_cons, List.not_mem_nil, or_false] at mem
  rcases mem with rfl | rfl | rfl
  · exact .of_gentleAll (gentleAll_assignment (by decide))
  · refine .of_gentleAll ?_
    rw [template, breaks]
    exact gentleAll_statementEnd
  · exact .of_gentleAll (gentleAll_product (by decide))

section All

variable {rules : List Rule} {indent : Text} (gentle : ∀ rule ∈ rules, rule.IsGentle indent)

include gentle

/-- What each rule keeps, all of them together keep. -/
theorem brackets_applyAll (body : Text) :
    brackets '{' '}' (applyAll rules indent body) = brackets '{' '}' body := by
  refine List.foldlRecOn (motive := fun text => brackets '{' '}' text = brackets '{' '}' body)
    rules _ rfl ?_
  intro text same rule mem
  exact ((gentle rule mem).braces text).trans same

theorem unmarked_applyAll {body : Text} (unmarked : Unmarked body) :
    Unmarked (applyAll rules indent body) := by
  refine List.foldlRecOn (motive := Unmarked) rules _ unmarked ?_
  intro text unmarked rule mem
  exact (gentle rule mem).quiet text unmarked

end All

end CrossShade.Rule
