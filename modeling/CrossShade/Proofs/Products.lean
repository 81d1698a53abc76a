import CrossShade.Proofs.Quotation
import CrossShade.Proofs.RuleFinders

/-!
The rule for matrix products, for a matrix of any name. The name is quoted in the pattern, so
whatever it is made of, the pattern is well formed and its first group matches the name as it
stands (`compile_product`); only a name that is too long makes it too heavy (`matrixMultiply_eq`).
What the rule does can then be told without patterns (`matrixMultiply_scans`): where the name stands
at a word edge and a sign follows, the operand reaches to the end of the statement, and the call
takes the place of the product.
-/

namespace CrossShade.Rule

open CrossShade.Pattern

/-! ### The pattern of a product -/

/-- The lexemes behind the matrix in the pattern of a product. -/
def operandLexemes : List Lexeme :=
  [.close, .char ' ', .times 0 none false, .char '*', .char ' ', .times 0 none false,
    .openCapture none, .dot, .times 0 none true, .close, .char ';']

/-- The items of the pattern of a product, with `name` for the matrix. -/
def productItems (name : Pattern.Item) : List Pattern.Item :=
  [⟨.anchor .wordEdge, 0, true⟩, name, ⟨spaces, 1, true⟩, .char '*', ⟨spaces, 1, true⟩,
    ⟨.group 2 (.span false (.except '\n')), 2, true⟩, .char ';']

theorem lexemes_product (matrix : Text) :
    lexemes ("\\b(".toList ++ Pattern.escape matrix ++ ") *\\* *(.*?);".toList) =
      .ok (.anchor .wordEdge :: .openCapture none :: (matrix.map .char ++ operandLexemes)) := by
  have operand : lexemes ") *\\* *(.*?);".toList = .ok operandLexemes := rfl
  have edge : ∀ rest, lexemes ("\\b(".toList ++ rest) =
      (lexemes ('(' :: rest)).map (.anchor .wordEdge :: ·) := fun rest => rfl
  have quotation := head?_escape_append matrix
    (by decide : ") *\\* *(.*?);".toList.head? ≠ some '?')
  rw [List.append_assoc, edge, lexemesFrom_cons (lexemeAt_open quotation), lexemes_escape_append,
    operand]
  rfl

theorem foldlM_product (matrix : Text) :
    (.anchor .wordEdge :: .openCapture none :: (matrix.map .char ++ operandLexemes) :
        List Lexeme).foldlM Builder.step .start =
      .ok ⟨⟨none, {}, [], (productItems (.quoted matrix 1)).reverse⟩, [], 2, []⟩ := by
  let outer : Scope := ⟨none, {}, [], [⟨.anchor .wordEdge, 0, true⟩]⟩
  let inner : Scope := ⟨some 1, {}, [], (matrix.map Pattern.Item.char).reverse ++ []⟩
  have front : ∀ rest : List Lexeme,
      (.anchor .wordEdge :: .openCapture none :: rest : List Lexeme).foldlM Builder.step .start =
        rest.foldlM Builder.step ⟨.start (some 1) {}, [outer], 1, []⟩ := fun rest => rfl
  have chars : (matrix.map Lexeme.char).foldlM Builder.step ⟨.start (some 1) {}, [outer], 1, []⟩ =
      .ok ⟨inner, [outer], 1, []⟩ := foldlM_step_chars matrix _ rfl
  -- The group is closed first, whatever it holds.
  have back : ∀ scope : Scope, operandLexemes.foldlM Builder.step ⟨scope, [outer], 1, []⟩ =
      .ok ⟨⟨none, {}, [], (productItems scope.finish).reverse⟩, [], 2, []⟩ := fun scope => rfl
  rw [front, List.foldlM_append, chars, ← finish_chars matrix 1 {}]
  exact back inner

/-- All but the matrix weighs the same in every product. Its layout backwards is the heavier one. -/
theorem fullWeight_product (matrix : Text) :
    (product matrix).fullWeight = 1424 + 32 * max 1 matrix.byteLength := by
  have forwards : (product matrix).weight .forwards =
      32 + (64 + (Regex.literal matrix).weight .forwards + 736) := rfl
  have backwards : (product matrix).weight .backwards =
      32 + (0 + (Regex.literal matrix).weight .backwards + 1248) := rfl
  have frames : frameWeight .forwards = 208 ∧ frameWeight .backwards = 144 := ⟨rfl, rfl⟩
  rw [Regex.fullWeight, forwards, backwards, Regex.weight_literal, Regex.weight_literal]
  omega

/-- **The pattern is well formed for every matrix**: the quotation does not nest. -/
theorem compile_product (matrix : Text) :
    Pattern.compile ("\\b(".toList ++ Pattern.escape matrix ++ ") *\\* *(.*?);".toList) none =
      .ok ⟨"\\b(".toList ++ Pattern.escape matrix ++ ") *\\* *(.*?);".toList,
        product matrix, []⟩ := by
  let scope : Scope := ⟨none, {}, [], (productItems (.quoted matrix 1)).reverse⟩
  have height : scope.finish.height =
      [0, (Pattern.Item.quoted matrix 1).height, 1, 0, 1, 2, 0].foldl max 0 + 2 := rfl
  have low : (Pattern.Item.quoted matrix 1).height ≤ 2 := Nat.succ_le_succ (rowHeight_chars matrix)
  have shallow : scope.finish.height ≤ Builder.heightLimit := by
    rw [height]
    simp only [List.foldl_cons, List.foldl_nil, Builder.heightLimit]
    omega
  exact compile_eq_ok (lexemes_product matrix) (foldlM_product matrix) shallow

theorem isSteady_concat {row : List Regex} (steady : ∀ regex ∈ row, regex.isSteady = true) :
    (Regex.concat row).isSteady = true := by
  induction row with
  | nil => rfl
  | cons first row ih =>
      obtain ⟨here, later⟩ := List.forall_mem_cons.mp steady
      cases row with
      | nil => exact here
      | cons second row => exact Bool.and_eq_true_iff.mpr ⟨here, ih later⟩

theorem isSteady_of_mem_chars {text : Text} {regex : Regex} (mem : regex ∈ text.map Regex.char) :
    regex.isSteady = true := by
  obtain ⟨c, -, rfl⟩ := List.mem_map.mp mem
  rfl

theorem isSteady_literal (text : Text) : (Regex.literal text).isSteady = true :=
  isSteady_concat fun _ mem => isSteady_of_mem_chars mem

theorem isSteady_product (matrix : Text) : (product matrix).isSteady = true := by
  have name : (product matrix).isSteady = ((Regex.literal matrix).isSteady && true) := rfl
  rw [name, isSteady_literal, Bool.and_true]

/-! ### The rule -/

/-- The rule for products with `matrix`. -/
def ofMatrix (matrix : Text) : Rule :=
  ⟨matrixMultiplyName, ⟨"\\b(".toList ++ Pattern.escape matrix ++ ") *\\* *(.*?);".toList,
    product matrix, []⟩, "mul( $\x7b2\x7d, $\x7b1\x7d );".toList⟩

theorem matrixMultiply_unlimited (matrix : Text) :
    matrixMultiply matrix none = .ok (ofMatrix matrix) := by
  rw [matrixMultiply, make, compile_product]
  rfl

/-- Under a limit the rule exists for every matrix that is not too long. -/
theorem matrixMultiply_eq (matrix : Text) (limit : Option Nat) :
    matrixMultiply matrix limit =
      if limit.any (· < 1424 + 32 * max 1 matrix.byteLength) then
        .error (.badPattern matrixMultiplyName .tooHeavy)
      else .ok (ofMatrix matrix) := by
  have unlimited := matrixMultiply_unlimited matrix
  rw [matrixMultiply] at unlimited ⊢
  rw [make_limited, unlimited, ← fullWeight_product]
  rfl

/-- There is no indent mark in the template. -/
theorem template_ofMatrix (matrix indent : Text) :
    (ofMatrix matrix).template indent = "mul( $\x7b2\x7d, $\x7b1\x7d );".toList := rfl

theorem apply_ofMatrix (matrix indent body : Text) :
    (ofMatrix matrix).apply indent body = Text.edit (multiplied matrix) none body := by
  refine apply_eq_edit (isSteady_product matrix) ?_ body
  rw [template_ofMatrix]
  exact finds_product matrix

theorem withMatrix_eq_ok (settings : Settings) {matrix : Text} {limit : Option Nat}
    (made : matrixMultiply matrix limit = .ok (ofMatrix matrix)) :
    settings.withMatrix matrix limit = .ok { settings with
      rules := settings.rules.map fun rule =>
        if rule.name = matrixMultiplyName then ofMatrix matrix else rule } := by
  have each : (fun rule : Rule =>
        if rule.name = matrixMultiplyName then matrixMultiply matrix limit else .ok rule) =
      fun rule => pure (if rule.name = matrixMultiplyName then ofMatrix matrix else rule) := by
    funext rule
    rw [made]
    split <;> rfl
  rw [Settings.withMatrix, each, List.mapM_pure]
  rfl

/-- **Products with any matrix are found by its name alone.** The rule for a matrix exists whatever
its name is made of, so that a matrix can always be named in the settings, where the weight of
patterns is not limited; where it is, the rule is the same unless the name is too long for the
limit. And the rule is the edit, from the left, that finds the name at a word edge, a sign behind it
and the operand up to the first end of a statement, on the same line, and puts the call in their
place. -/
theorem matrixMultiply_scans (matrix : Text) :
    ∃ rule, matrixMultiply matrix none = .ok rule ∧
      (∀ settings : Settings, settings.withMatrix matrix none = .ok { settings with
        rules := settings.rules.map fun other =>
          if other.name = matrixMultiplyName then rule else other }) ∧
      (∀ limit, matrixMultiply matrix limit =
        if limit.any (· < 1424 + 32 * max 1 matrix.byteLength) then
          .error (.badPattern matrixMultiplyName .tooHeavy)
        else .ok rule) ∧
      (∀ limit, matrixMultiply matrix limit = .ok rule → ∀ settings : Settings,
        settings.withMatrix matrix limit = settings.withMatrix matrix none) ∧
      (∀ indent body, rule.apply indent body = Text.edit (multiplied matrix) none body) ∧
      ∀ before text value rest, multiplied matrix before text = some (value, rest) ↔
        Text.isWordEdge before text = true ∧
        ∃ gap after operand, (∀ c ∈ gap ++ after, c = ' ') ∧ operand.head? ≠ some ' ' ∧
          text = matrix ++ gap ++ '*' :: (after ++ (operand ++ ';' :: rest)) ∧
          ';' ∉ operand ∧ '\n' ∉ operand ∧ value = call operand matrix := by
  refine ⟨ofMatrix matrix, matrixMultiply_unlimited matrix,
    fun settings => withMatrix_eq_ok settings (matrixMultiply_unlimited matrix),
    matrixMultiply_eq matrix, fun limit made settings => ?_, apply_ofMatrix matrix,
    fun _ _ _ _ => multiplied_eq_some_iff⟩
  rw [withMatrix_eq_ok settings made, withMatrix_eq_ok settings (matrixMultiply_unlimited matrix)]

end CrossShade.Rule
