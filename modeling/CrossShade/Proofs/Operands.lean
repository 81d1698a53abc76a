import Mathlib.Data.List.DropRight
import CrossShade.Proofs.Products

/-!
The operands of matrix products. The operand that a call takes in reaches from the sign to the end
of the statement, so it closes whatever the statement has opened in front of the product. In a
statement with balanced parentheses it is balanced just if what stands in front of the product is,
and then the parenthesis of the call is closed by its own (`operand_balanced_iff`). A product among
the arguments of a function takes the parenthesis of that function along
(`operand_unbalanced_in_arguments`).
-/

namespace CrossShade.Pattern

/-! ### Places of matches -/

/-- Every match among the pieces is the first one at its place in the text. -/
def Regex.Locates (regex : Regex) (pieces : List Piece) (text : Text) : Prop :=
  ∀ front found back, pieces = front ++ .matched found :: back →
    ∃ place thread, regex.first place = some thread ∧
      found = ⟨place.textTo thread.cursor, thread.captures⟩ ∧
      text = front.flatMap (Piece.replaced Match.text) ++ place.rest

section Locates

variable {regex : Regex} {pieces : List Piece} {text : Text}

theorem locates_nil : regex.Locates [] text := by
  intro front found back cut
  exact absurd cut.symm (by simp)

theorem Regex.Locates.kept (later : regex.Locates pieces text) (c : Char) :
    regex.Locates (.kept c :: pieces) (c :: text) := by
  intro front found back cut
  cases front with
  | nil => cases (List.cons.inj cut).1
  | cons piece front =>
      obtain ⟨rfl, behind⟩ := List.cons.inj cut
      obtain ⟨place, thread, first, eq, whole⟩ := later front found back behind
      exact ⟨place, thread, first, eq, congrArg (c :: ·) whole⟩

theorem Regex.Locates.matched {behind : Text} (later : regex.Locates pieces behind)
    {place : Cursor} {thread : Thread} (first : regex.first place = some thread)
    (here : place.rest = text) (whole : text = place.textTo thread.cursor ++ behind) :
    regex.Locates (.matched ⟨place.textTo thread.cursor, thread.captures⟩ :: pieces) text := by
  intro front found back cut
  cases front with
  | nil =>
      obtain ⟨eq, -⟩ := List.cons.inj cut
      exact ⟨place, thread, first, (Piece.matched.inj eq).symm, here.symm⟩
  | cons piece front =>
      obtain ⟨rfl, onward⟩ := List.cons.inj cut
      obtain ⟨other, stop, matched, eq, rest⟩ := later front found back onward
      refine ⟨other, stop, matched, eq, ?_⟩
      rw [whole, rest, List.flatMap_cons, List.append_assoc]
      rfl

/-- The matches among the pieces of a text stand where the pattern matches first. -/
theorem locates_firstPieces {skip : Nat} {closed : Bool} {cursor : Cursor}
    (here : cursor.rest = text) :
    regex.Locates (regex.firstPieces skip closed cursor text) (text.drop skip) := by
  induction text generalizing skip closed cursor with
  | nil =>
      cases skip with
      | succ skip => exact locates_nil
      | zero =>
          rw [Regex.firstPieces]
          cases first : regex.first cursor with
          | none => exact locates_nil
          | some thread =>
              have nothing : cursor.textTo thread.cursor = [] := by simp [Cursor.textTo, here]
              dsimp only
              split
              · exact locates_nil
              · rw [← nothing]
                exact locates_nil.matched first (here.trans nothing.symm) (List.append_nil _).symm
  | cons c rest ih =>
      cases skip with
      | succ skip => exact ih rfl
      | zero =>
          have later := fun skip closed => @ih skip closed (cursor.step c rest) rfl
          rw [Regex.firstPieces]
          cases first : regex.first cursor with
          | none => exact (later 0 false).kept c
          | some thread =>
              have whole : cursor.textTo thread.cursor ++
                  (c :: rest).drop (cursor.textTo thread.cursor).length = c :: rest :=
                List.prefix_iff_eq_append.mp (here ▸ List.take_prefix _ _)
              dsimp only
              cases taken : (cursor.textTo thread.cursor).length with
              | succ length =>
                  rw [taken] at whole
                  exact (later length true).matched first here whole.symm
              | zero =>
                  rw [taken] at whole
                  dsimp only
                  split
                  · exact (later 0 false).kept c
                  · exact ((later 0 false).kept c).matched first here whole.symm

end Locates

end CrossShade.Pattern

namespace CrossShade.Rule

open CrossShade.Pattern CrossShade.Enclosed

/-! ### Statements -/

/-- The statements of a body, each without the sign that ends it. -/
def statements (body : Text) : List Text :=
  (body.splitOn ';').dropLast

/-- What stands in front of a place in its statement, from the pieces in front of the place. -/
def ahead (front : List Piece) : Text :=
  (front.flatMap (Piece.replaced Match.text)).rtakeWhile (· != ';')

/-- A text up to the next end of a statement is a statement behind the last one. -/
theorem mem_dropLast_append {text rest : Text} (unended : ';' ∉ text) (earlier : List Text) :
    text ∈ (earlier ++ (text ++ ';' :: rest).splitOn ';').dropLast := by
  rw [List.splitOn_append_cons_self, List.splitOn_eq_singleton unended, ← List.append_assoc,
    List.dropLast_append_of_ne_nil (List.splitOn_ne_nil _ _)]
  simp

/-- From the last end of a statement to the next one there is a statement. -/
theorem mem_statements {front text rest : Text} (unended : ';' ∉ text) :
    front.rtakeWhile (· != ';') ++ text ∈ statements (front ++ (text ++ ';' :: rest)) := by
  induction front using List.reverseRecOn generalizing text with
  | nil => exact mem_dropLast_append unended []
  | append_singleton front c ih =>
      rw [List.append_assoc]
      by_cases stop : c = ';'
      · subst stop
        rw [List.rtakeWhile_concat_neg _ _ _ (by simp), List.nil_append, statements,
          List.singleton_append, List.splitOn_append_cons_self]
        exact mem_dropLast_append unended _
      · rw [List.rtakeWhile_concat_pos _ _ _ (by simpa using stop), List.append_assoc]
        exact ih (by simpa [eq_comm] using ⟨stop, unended⟩)

section Products

variable {matrix body : Text} {front back : List Piece} {found : Match}

/-! ### Calls -/

/-- What a call has between its parentheses. -/
def arguments (operand matrix : Text) : Text :=
  " ".toList ++ (operand ++ (", ".toList ++ (matrix ++ " ".toList)))

theorem call_eq (operand matrix : Text) :
    "mul(".toList ++ (arguments operand matrix ++ ");".toList) = call operand matrix := by
  have inner : arguments operand matrix ++ ");".toList =
      " ".toList ++ (operand ++ (", ".toList ++ (matrix ++ " ".toList))) ++ ");".toList := rfl
  rw [inner]
  simp only [List.append_assoc]
  rfl

theorem brackets_word (word : ∀ c ∈ matrix, Text.isWordChar c = true) :
    brackets '(' ')' matrix = [] :=
  brackets_eq_nil (fun mem => absurd (word _ mem) (by decide))
    (fun mem => absurd (word _ mem) (by decide))

theorem brackets_spaces {gap : Text} (spaced : ∀ c ∈ gap, c = ' ') : brackets '(' ')' gap = [] :=
  brackets_eq_nil (fun mem => absurd (spaced _ mem) (by decide))
    (fun mem => absurd (spaced _ mem) (by decide))

/-- The parenthesis of a call is closed by its own just if the operand is balanced. -/
theorem upToClose_arguments_iff (word : ∀ c ∈ matrix, Text.isWordChar c = true)
    (operand later : Text) :
    upToClose '(' ')' 0 (arguments operand matrix ++ ");".toList ++ later) =
        some (arguments operand matrix, ';' :: later) ↔ Balanced '(' ')' operand := by
  have space : brackets '(' ')' " ".toList = [] := rfl
  have comma : brackets '(' ')' ", ".toList = [] := rfl
  have same : brackets '(' ')' (arguments operand matrix) = brackets '(' ')' operand := by
    simp only [arguments, brackets_append, brackets_word word, space, comma, List.nil_append,
      List.append_nil]
  rw [upToClose_eq_some_iff (by decide), balanced_congr (by decide) same, List.append_assoc]
  exact and_iff_right rfl

/-! ### Operands -/

/-- A product among the pieces of a body. -/
theorem exists_product_of_pieces
    (cut : (product matrix).pieces body = front ++ .matched found :: back) :
    ∃ gap after operand rest, (∀ c ∈ gap ++ after, c = ' ') ∧ ';' ∉ operand ∧
      body = front.flatMap (Piece.replaced Match.text) ++
        (matrix ++ gap ++ '*' :: after ++ operand ++ ';' :: rest) ∧
      found.group? 1 = some matrix ∧ found.group? 2 = some operand := by
  rw [pieces_eq (isSteady_product matrix)] at cut
  obtain ⟨place, thread, first, rfl, whole⟩ := locates_firstPieces rfl front found back cut
  cases stands : productAt matrix place.before place.rest with
  | none => exact absurd (first_product_of_none stands ▸ first) (Option.some_ne_none _).symm
  | some operand =>
      obtain ⟨operand, rest⟩ := operand
      obtain ⟨gap, after, captures, spaced, here, matched, groups⟩ := first_product_of_some stands
      obtain rfl := Option.some.inj (matched.symm.trans first)
      obtain ⟨name, group⟩ := groups (place.textTo _)
      refine ⟨gap, after, operand, rest, spaced, unended_of_productAt stands, ?_, name, group⟩
      have same : body = body.drop 0 := rfl
      rw [same, whole, here]
      simp

theorem unended_product (word : ∀ c ∈ matrix, Text.isWordChar c = true) {gap after operand : Text}
    (spaced : ∀ c ∈ gap ++ after, c = ' ') (unended : ';' ∉ operand) :
    ';' ∉ matrix ++ gap ++ '*' :: after ++ operand := by
  intro mem
  simp only [List.mem_append, List.mem_cons] at mem spaced
  rcases mem with ((mem | mem) | mem | mem) | mem
  · exact absurd (word _ mem) (by decide)
  · exact absurd (spaced _ (.inl mem)) (by decide)
  · exact absurd mem (by decide)
  · exact absurd (spaced _ (.inr mem)) (by decide)
  · exact unended mem

/-- In a balanced statement an operand is as balanced as what stands in front of the product. -/
theorem balanced_operand_iff (word : ∀ c ∈ matrix, Text.isWordChar c = true)
    {start gap after operand : Text} (spaced : ∀ c ∈ gap ++ after, c = ' ')
    (balanced : Balanced '(' ')' (start ++ (matrix ++ gap ++ '*' :: after ++ operand))) :
    Balanced '(' ')' operand ↔ Balanced '(' ')' start := by
  have gaps := brackets_spaces spaced
  rw [brackets_append, List.append_eq_nil_iff] at gaps
  have sign : brackets '(' ')' ('*' :: after) = [] := gaps.2
  have same : brackets '(' ')' (matrix ++ gap ++ '*' :: after ++ operand) =
      brackets '(' ')' operand := by
    simp only [brackets_append, brackets_word word, gaps.1, sign, List.nil_append]
  exact (balanced_congr (by decide) same).symm.trans balanced.iff_of_append.symm

/-- **An operand is balanced just if the product stands outside of parentheses.** In a body whose
statements have balanced parentheses, what a product moves into its call is balanced exactly if the
part of the statement in front of the product is, and just then the parenthesis of the call is
closed by the one that comes with it. The rule is the same under every limit on the weight of
patterns that lets it exist. -/
theorem operand_balanced_iff (word : ∀ c ∈ matrix, Text.isWordChar c = true)
    (balanced : ∀ statement ∈ statements body, Balanced '(' ')' statement) :
    ∃ rule, matrixMultiply matrix none = .ok rule ∧
      (∀ limit, matrixMultiply matrix limit =
        if limit.any (· < 1424 + 32 * max 1 matrix.byteLength) then
          .error (.badPattern matrixMultiplyName .tooHeavy)
        else .ok rule) ∧
      ∀ front found back, rule.pattern.regex.pieces body = front ++ .matched found :: back →
        ∃ operand, found.group? 2 = some operand ∧
          (∀ indent, Template.expand rule.pattern.names (rule.template indent) found =
            "mul(".toList ++ (arguments operand matrix ++ ");".toList)) ∧
          (Balanced '(' ')' operand ↔ Balanced '(' ')' (ahead front)) ∧
          ∀ later, upToClose '(' ')' 0 (arguments operand matrix ++ ");".toList ++ later) =
              some (arguments operand matrix, ';' :: later) ↔
            Balanced '(' ')' (ahead front) := by
  refine ⟨ofMatrix matrix, matrixMultiply_unlimited matrix, matrixMultiply_eq matrix,
    fun front found back cut => ?_⟩
  obtain ⟨gap, after, operand, rest, spaced, unended, whole, name, group⟩ :=
    exists_product_of_pieces cut
  have outside := balanced_operand_iff word spaced
    (balanced _ (whole ▸ mem_statements (unended_product word spaced unended)))
  refine ⟨operand, group, fun indent => ?_, outside, fun later => ?_⟩
  · rw [template_ofMatrix, call_eq]
    exact expand_mul_eq_call name group
  · exact (upToClose_arguments_iff word operand later).trans outside

/-- Behind a sum the operand is balanced, and so is what stands in front of the product. -/
theorem operand_balanced_iff_sum :
    (∀ c ∈ "u_mvp".toList, Text.isWordChar c = true) ∧
      (∀ statement ∈ statements "r = f(a); q = g(b) + u_mvp * h(c);".toList,
        Balanced '(' ')' statement) ∧
      ∃ rule front found back, matrixMultiply "u_mvp".toList = .ok rule ∧
        rule.pattern.regex.pieces "r = f(a); q = g(b) + u_mvp * h(c);".toList =
          front ++ .matched found :: back ∧
        ahead front = " q = g(b) + ".toList ∧
        found.group? 2 = some "h(c)".toList ∧ Balanced '(' ')' "h(c)".toList := by
  have word : ∀ c ∈ "u_mvp".toList, Text.isWordChar c = true := by decide
  have balanced : ∀ statement ∈ statements "r = f(a); q = g(b) + u_mvp * h(c);".toList,
      Balanced '(' ')' statement := by decide +kernel
  obtain ⟨rule, unlimited, limited, operands⟩ := operand_balanced_iff word balanced
  have made : matrixMultiply "u_mvp".toList = .ok rule := (limited _).trans (if_neg (by decide))
  obtain rfl := Except.ok.inj ((matrixMultiply_unlimited _).symm.trans unlimited)
  let front := "r = f(a); q = g(b) + ".toList.map Piece.kept
  obtain ⟨found, cut, group⟩ : ∃ found,
      (product "u_mvp".toList).pieces "r = f(a); q = g(b) + u_mvp * h(c);".toList =
        front ++ [.matched found] ∧ found.group? 2 = some "h(c)".toList := by
    rw [pieces_eq (isSteady_product _)]
    exact ⟨⟨_, _⟩, rfl, rfl⟩
  obtain ⟨operand, same, -, outside, -⟩ := operands front found [] cut
  obtain rfl := Option.some.inj (same.symm.trans group)
  exact ⟨word, balanced, _, front, found, [], made, cut, by decide, group, outside.mpr (by decide)⟩

/-- A product among the arguments of a function takes the parenthesis of the function along. -/
theorem operand_unbalanced_in_arguments :
    (∀ c ∈ "u_mvp".toList, Text.isWordChar c = true) ∧ '\n' ∉ "p = f(u_mvp * a);".toList ∧
      (∀ statement ∈ statements "p = f(u_mvp * a);".toList, Balanced '(' ')' statement) ∧
      ∃ rule front found back, matrixMultiply "u_mvp".toList = .ok rule ∧
        rule.pattern.regex.pieces "p = f(u_mvp * a);".toList = front ++ .matched found :: back ∧
        found.group? 2 = some "a)".toList ∧ ¬Balanced '(' ')' "a)".toList ∧
        ∀ indent, rule.apply indent "p = f(u_mvp * a);".toList =
          "p = f(mul( a), u_mvp );".toList := by
  obtain ⟨found, cut, group⟩ : ∃ found,
      (product "u_mvp".toList).pieces "p = f(u_mvp * a);".toList =
        "p = f(".toList.map .kept ++ [.matched found] ∧ found.group? 2 = some "a)".toList := by
    rw [pieces_eq (isSteady_product _)]
    exact ⟨⟨_, _⟩, rfl, rfl⟩
  refine ⟨by decide, by decide, by decide +kernel, ofMatrix "u_mvp".toList, _, found, [],
    (matrixMultiply_eq _ _).trans (if_neg (by decide)), cut, group, by decide, fun indent => ?_⟩
  rw [apply_ofMatrix]
  decide +kernel

end Products

end CrossShade.Rule
