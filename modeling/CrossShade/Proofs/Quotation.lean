import CrossShade.Proofs.Weights

/-!
Patterns and templates with a text quoted in them. Every character of a quoted text is read as
itself, whatever meaning it has there, so a pattern that is well formed around a quotation is well
formed for every quoted text.

* `lexemes_escape_append`: a quoted text is read as its characters.
* `foldlM_step_chars`: characters in a row become one item each.
* `finish_chars`: a group around them matches the text as it stands.
* `segments_escape_append`: in a template a quoted text refers to nothing.
-/

namespace CrossShade.Pattern

/-! ### Lexemes -/

section Lexemes

variable {c : Char} {rest : Text} {lexeme : Lexeme}

theorem lexemesFrom_cons (here : lexemeAt c rest = .ok (lexeme, 0)) :
    lexemes (c :: rest) = (lexemes rest).map (lexeme :: ·) := by
  rw [lexemes, lexemesFrom, here]
  rfl

/-- Behind a backslash a mark stands for itself. -/
theorem lexemeAt_escaped (mark : c ∈ marks) (rest : Text) :
    lexemeAt '\\' (c :: rest) = .ok (.char c, 1) := by
  have stands : isEscapable c = true :=
    List.all_eq_true.mp (by decide : marks.all isEscapable = true) c mark
  have escaped : escapeAt (c :: rest) = .ok (.char c, 1) := by
    unfold escapeAt
    dsimp only
    split
    case h_20 => rw [if_pos stands]
    -- Letters with a meaning behind a backslash are no marks.
    all_goals exact absurd stands (by decide)
  simp only [lexemeAt, escaped]
  rfl

/-- Every character that is no mark stands for itself. -/
theorem lexemeAt_plain (plain : c ∉ marks) (rest : Text) : lexemeAt c rest = .ok (.char c, 0) := by
  unfold lexemeAt
  split
  case h_13 => rfl
  all_goals exact absurd (by decide) plain

/-- A group that no question mark follows is remembered. -/
theorem lexemeAt_open (plain : rest.head? ≠ some '?') :
    lexemeAt '(' rest = .ok (.openCapture none, 0) := by
  cases rest with
  | nil => rfl
  | cons d rest =>
      have differs : d ≠ '?' := by simpa using plain
      simp only [lexemeAt]
      split
      · next eq => exact absurd (List.cons.inj eq).1 differs
      · rfl

theorem escape_cons (c : Char) (text : Text) :
    escape (c :: text) = (if marks.contains c then ['\\', c] else [c]) ++ escape text := rfl

/-- **A quoted text is read as its characters.** -/
theorem lexemes_escape_append (text rest : Text) :
    lexemes (escape text ++ rest) = (lexemes rest).map (text.map .char ++ ·) := by
  induction text with
  | nil =>
      have same : lexemes rest = (lexemes rest).map id := by cases lexemes rest <;> rfl
      exact same
  | cons c text ih =>
      have both : lexemes (escape (c :: text) ++ rest) =
          (lexemes (escape text ++ rest)).map (.char c :: ·) := by
        rw [escape_cons]
        split
        · next mark =>
            have here := lexemeAt_escaped (List.contains_iff_mem.mp mark) (escape text ++ rest)
            rw [lexemes]
            simp only [List.cons_append, List.nil_append, lexemesFrom, here]
            rfl
        · next plain =>
            have here := lexemeAt_plain (mt List.contains_iff_mem.mpr plain) (escape text ++ rest)
            exact lexemesFrom_cons here
      rw [both, ih]
      cases lexemes rest <;> rfl

/-- A quoted text does not begin with a question mark. -/
theorem head?_escape_append (text : Text) (plain : rest.head? ≠ some '?') :
    (escape text ++ rest).head? ≠ some '?' := by
  cases text with
  | nil => exact plain
  | cons c text =>
      rw [escape_cons]
      split
      · simp
      · next noMark =>
          have differs : c ≠ '?' := by
            rintro rfl
            exact noMark (by decide)
          simpa using differs

end Lexemes

/-! ### Items -/

/-- A character as an item of a row. -/
def Item.char (c : Char) : Item :=
  ⟨.char c, 0, true⟩

/-- Characters in a row become one item each, where case matters. -/
theorem foldlM_step_chars (text : Text) (builder : Builder)
    (exact : builder.scope.flags.ignoreCase = false) :
    (text.map Lexeme.char).foldlM Builder.step builder =
      .ok { builder with scope := { builder.scope with
        items := (text.map Item.char).reverse ++ builder.scope.items } } := by
  induction text generalizing builder with
  | nil => rfl
  | cons c text ih =>
      have one : builder.step (.char c) =
          .ok { builder with scope := builder.scope.push (.char c) } := by
        simp only [Builder.step, Builder.push, Scope.pushFlat, Scope.chars, exact]
        rfl
      rw [List.map_cons, List.foldlM_cons, one]
      refine (ih { builder with scope := builder.scope.push (.char c) } exact).trans ?_
      simp [Scope.push]

/-- A text in a remembered group, as an item of a row. -/
def Item.quoted (text : Text) (index : Nat) : Item :=
  ⟨.group index (.literal text), rowHeight ((text.map Item.char).map Item.height) + 1, true⟩

theorem finish_chars (text : Text) (index : Nat) (flags : Flags) :
    (Scope.mk (some index) flags [] ((text.map Item.char).reverse ++ [])).finish =
      .quoted text index := by
  have row : ((text.map Item.char).reverse ++ []).reverse = text.map Item.char := by simp
  have chars : (text.map Item.char).map Item.regex = text.map Regex.char := by
    rw [List.map_map]
    rfl
  simp only [Scope.finish, Scope.divide, row, List.reverse_singleton, List.map_cons, List.map_nil,
    chars]
  rfl

/-- A row is at most one level above its items. -/
theorem rowHeight_le {heights : List Nat} {most : Nat} (low : ∀ height ∈ heights, height ≤ most) :
    rowHeight heights ≤ most + 1 := by
  have highest : ∀ (heights : List Nat) (start : Nat), start ≤ most →
      (∀ height ∈ heights, height ≤ most) → heights.foldl max start ≤ most := by
    intro heights
    induction heights with
    | nil => exact fun start lowStart _ => lowStart
    | cons height heights ih =>
        intro start lowStart low
        obtain ⟨here, later⟩ := List.forall_mem_cons.mp low
        exact ih (max start height) (Nat.max_le.mpr ⟨lowStart, here⟩) later
  match heights with
  | [] => exact Nat.zero_le _
  | [height] => exact Nat.le_succ_of_le (low height List.mem_cons_self)
  | first :: second :: rest =>
      exact Nat.succ_le_succ (highest (first :: second :: rest) 0 (Nat.zero_le most) low)

theorem height_eq_zero_of_mem_chars {text : Text} {item : Item} (mem : item ∈ text.map Item.char) :
    item.height = 0 := by
  obtain ⟨c, -, rfl⟩ := List.mem_map.mp mem
  rfl

/-- Characters in a row are at most one level high. -/
theorem rowHeight_chars (text : Text) :
    rowHeight ((text.map Item.char).map Item.height) ≤ 1 := by
  refine rowHeight_le fun height mem => ?_
  obtain ⟨item, memItem, rfl⟩ := List.mem_map.mp mem
  exact Nat.le_of_eq (height_eq_zero_of_mem_chars memItem)

/-- A pattern whose groups are closed and that is not nested too deeply is well formed. -/
theorem compile_eq_ok {source : Text} {row : List Lexeme} {scope : Scope} {groups : Nat}
    {names : List (Text × Nat)} (read : lexemes source = .ok row)
    (built : row.foldlM Builder.step .start = .ok ⟨scope, [], groups, names⟩)
    (shallow : scope.finish.height ≤ Builder.heightLimit) :
    compile source none = .ok ⟨source, scope.finish.regex, names⟩ := by
  have low : ¬Builder.heightLimit < scope.finish.height - 1 := by omega
  rw [compile_eq_bind, read, Except.bind, built, Except.bind]
  exact if_neg low

end CrossShade.Pattern

/-! ### Templates -/

namespace CrossShade.Template

/-- **A quoted text refers to no group**, and what stands behind it is read as it is alone. -/
theorem segments_escape_append (text rest : Text) :
    segments (escape text ++ rest) = text.map .char ++ segments rest := by
  induction text with
  | nil => rfl
  | cons c text ih =>
      have cons : escape (c :: text) = (if c = '$' then ['$', '$'] else [c]) ++ escape text := rfl
      have here : segments (escape (c :: text) ++ rest) =
          .char c :: segments (escape text ++ rest) := by
        rw [cons]
        split
        · next dollar =>
            subst dollar
            rfl
        · next plain =>
            rw [segments, List.singleton_append, List.cons_append, segmentsFrom, if_neg plain]
            rfl
      rw [here, ih, List.map_cons, List.cons_append]

theorem segments_escape (text : Text) : segments (escape text) = text.map .char := by
  have alone := segments_escape_append text []
  rwa [List.append_nil, show segments [] = [] from rfl, List.append_nil] at alone

theorem flatMap_fill_chars (names : List (Text × Nat)) (found : Pattern.Match) (text : Text) :
    (text.map Segment.char).flatMap (Segment.fill names found) = text := by
  induction text with
  | nil => rfl
  | cons c text ih => exact congrArg (c :: ·) ih

end CrossShade.Template
