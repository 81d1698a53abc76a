import CrossShade.Proofs.Products

/-!
The rule for assignments, for a target of any name. As with products, the name is quoted in the
pattern, which is then well formed whatever the name is made of (`compile_assignment`) and too heavy
only if the name is too long (`assignToReturn_eq`); and what the rule does can be told without
patterns (`assignToReturn_scans`). A match needs a character behind the sign of the assignment that
is no other sign, so a comparison is no match where it begins; and no match that begins in front of
a comparison reaches beyond its first character (`edit_comparison`).
-/

namespace CrossShade.Rule

open CrossShade.Pattern CrossShade.Text

/-! ### The pattern of an assignment -/

/-- The lexemes behind the target in the pattern of an assignment. -/
def assignedLexemes : List Lexeme :=
  [.char ' ', .times 0 none false, .char '=', .char ' ', .times 0 none false, .openCapture none,
    .set (.except '='), .close]

/-- The items behind the target in the pattern of an assignment. -/
def assignedItems : List Pattern.Item :=
  [⟨spaces, 1, true⟩, .char '=', ⟨spaces, 1, true⟩, ⟨.group 1 (.set (.except '=')), 1, true⟩]

/-- The items of the pattern of an assignment. -/
def assignmentItems (target : Text) : List Pattern.Item :=
  ⟨.anchor .wordEdge, 0, true⟩ :: (target.map .char ++ assignedItems)

theorem lexemes_assignment (target : Text) :
    lexemes ("\\b".toList ++ Pattern.escape target ++ " *= *([^=])".toList) =
      .ok (.anchor .wordEdge :: (target.map .char ++ assignedLexemes)) := by
  have assigned : lexemes " *= *([^=])".toList = .ok assignedLexemes := rfl
  have edge : ∀ rest, lexemes ("\\b".toList ++ rest) =
      (lexemes rest).map (.anchor .wordEdge :: ·) := fun rest => rfl
  rw [List.append_assoc, edge, lexemes_escape_append, assigned]
  rfl

theorem foldlM_assignment (target : Text) :
    (.anchor .wordEdge :: (target.map .char ++ assignedLexemes) : List Lexeme).foldlM
        Builder.step .start =
      .ok ⟨⟨none, {}, [], (assignmentItems target).reverse⟩, [], 1, []⟩ := by
  let start : Scope := ⟨none, {}, [], [⟨.anchor .wordEdge, 0, true⟩]⟩
  have front : ∀ rest : List Lexeme,
      (.anchor .wordEdge :: rest : List Lexeme).foldlM Builder.step .start =
        rest.foldlM Builder.step ⟨start, [], 0, []⟩ := fun rest => rfl
  have back : ∀ items : List Pattern.Item,
      assignedLexemes.foldlM Builder.step ⟨⟨none, {}, [], items⟩, [], 0, []⟩ =
        .ok ⟨⟨none, {}, [], assignedItems.reverse ++ items⟩, [], 1, []⟩ := fun items => rfl
  have row : (assignmentItems target).reverse =
      assignedItems.reverse ++ ((target.map Pattern.Item.char).reverse ++ start.items) := by
    simp [assignmentItems, start]
  rw [front, List.foldlM_append, foldlM_step_chars target ⟨start, [], 0, []⟩ rfl, row]
  exact back _

theorem regex_assignmentItems (target : Text) :
    Regex.concat ((assignmentItems target).map Pattern.Item.regex) = assignment target := by
  have chars : (target.map Pattern.Item.char).map Pattern.Item.regex = target.map Regex.char := by
    rw [List.map_map]
    rfl
  rw [assignmentItems, List.map_cons, List.map_append, chars]
  rfl

theorem height_le_of_mem_assignmentItems {target : Text} {item : Pattern.Item}
    (mem : item ∈ assignmentItems target) : item.height ≤ 1 := by
  rcases List.mem_cons.mp mem with rfl | mem
  · exact Nat.zero_le 1
  · rcases List.mem_append.mp mem with mem | mem
    · rw [height_eq_zero_of_mem_chars mem]
      exact Nat.zero_le 1
    · simp only [assignedItems, List.mem_cons, List.not_mem_nil, or_false] at mem
      rcases mem with rfl | rfl | rfl | rfl
      · exact Nat.le_refl 1
      · exact Nat.zero_le 1
      · exact Nat.le_refl 1
      · exact Nat.le_refl 1

/-- All but the target weighs the same in every assignment. Its layout backwards is the heavier one,
for the character behind the sign may be nearly any. -/
theorem fullWeight_assignment (target : Text) :
    (assignment target).fullWeight = 1352 + 32 * target.byteLength := by
  let assigned : List Regex := [spaces, .char '=', spaces, .group 1 (.set (.except '='))]
  have apart (direction : Direction) : (assignment target).weight direction =
      32 + (32 * target.byteLength + (Regex.concat assigned).weight direction) := by
    rw [assignment, Regex.weight_concat_cons _ (by simp),
      Regex.weight_concat_chars_append target (List.cons_ne_nil _ _)]
    rfl
  have forwards : (Regex.concat assigned).weight .forwards = 664 := rfl
  have backwards : (Regex.concat assigned).weight .backwards = 1176 := rfl
  have frames : frameWeight .forwards = 208 ∧ frameWeight .backwards = 144 := ⟨rfl, rfl⟩
  rw [Regex.fullWeight, apart, apart, forwards, backwards]
  omega

/-- **The pattern is well formed for every target**: the quotation does not nest. -/
theorem compile_assignment (target : Text) :
    Pattern.compile ("\\b".toList ++ Pattern.escape target ++ " *= *([^=])".toList) none =
      .ok ⟨"\\b".toList ++ Pattern.escape target ++ " *= *([^=])".toList,
        assignment target, []⟩ := by
  have whole : (Scope.mk none {} [] (assignmentItems target).reverse).finish =
      ⟨assignment target, rowHeight ((assignmentItems target).map Pattern.Item.height) + 1,
        true⟩ := by
    rw [← regex_assignmentItems, Scope.finish, Scope.divide]
    simp only [List.reverse_reverse]
    rfl
  have low : rowHeight ((assignmentItems target).map Pattern.Item.height) ≤ 2 := by
    refine rowHeight_le fun height mem => ?_
    obtain ⟨item, memItem, rfl⟩ := List.mem_map.mp mem
    exact height_le_of_mem_assignmentItems memItem
  have shallow : (Scope.mk none {} [] (assignmentItems target).reverse).finish.height ≤
      Builder.heightLimit := by
    rw [whole, Builder.heightLimit]
    dsimp only
    omega
  rw [compile_eq_ok (lexemes_assignment target) (foldlM_assignment target) shallow, whole]

theorem isSteady_assignment (target : Text) : (assignment target).isSteady = true := by
  refine isSteady_concat fun regex mem => ?_
  rcases List.mem_cons.mp mem with rfl | mem
  · rfl
  · rcases List.mem_append.mp mem with mem | mem
    · exact isSteady_of_mem_chars mem
    · simp only [List.mem_cons, List.not_mem_nil, or_false] at mem
      rcases mem with rfl | rfl | rfl | rfl <;> rfl

/-! ### The rule -/

/-- The rule for assignments to `target`. -/
def ofTarget (target : Text) : Rule :=
  ⟨assignToReturnName, ⟨"\\b".toList ++ Pattern.escape target ++ " *= *([^=])".toList,
    assignment target, []⟩, "return $\x7b1\x7d".toList⟩

theorem assignToReturn_unlimited (target : Text) :
    assignToReturn target none = .ok (ofTarget target) := by
  rw [assignToReturn, make, compile_assignment]
  rfl

/-- Under a limit the rule exists for every target that is not too long. -/
theorem assignToReturn_eq (target : Text) (limit : Option Nat) :
    assignToReturn target limit =
      if limit.any (· < 1352 + 32 * target.byteLength) then
        .error (.badPattern assignToReturnName .tooHeavy)
      else .ok (ofTarget target) := by
  have unlimited := assignToReturn_unlimited target
  rw [assignToReturn] at unlimited ⊢
  rw [make_limited, unlimited, ← fullWeight_assignment]
  rfl

/-- Within the usual limit that is a bound on the bytes of the target. -/
theorem assignToReturn_within (target : Text) :
    assignToReturn target =
      if target.byteLength ≤ 327637 then .ok (ofTarget target)
      else .error (.badPattern assignToReturnName .tooHeavy) := by
  have heavy : (some weightLimit).any (· < 1352 + 32 * target.byteLength) = true ↔
      ¬target.byteLength ≤ 327637 := by
    rw [Option.any_some, decide_eq_true_eq, weightLimit]
    omega
  rw [assignToReturn_eq]
  by_cases short : target.byteLength ≤ 327637
  · rw [if_pos short, if_neg (mt heavy.mp (not_not_intro short))]
  · rw [if_neg short, if_pos (heavy.mpr short)]

/-- There is no indent mark in the template. -/
theorem template_ofTarget (target indent : Text) :
    (ofTarget target).template indent = "return $\x7b1\x7d".toList := rfl

theorem apply_ofTarget (target indent body : Text) :
    (ofTarget target).apply indent body = edit (returned target) none body := by
  refine apply_eq_edit (isSteady_assignment target) ?_ body
  rw [template_ofTarget]
  exact finds_assignment target

/-! ### The character that is assigned -/

/-- The character `c`, with `rest` behind it, is what an assignment keeps of the text behind its
sign: the first that is no space, unless that is another sign or is missing; then it is the last of
the spaces. -/
def Keeps (behind : Text) (c : Char) (rest : Text) : Prop :=
  ∃ gap, (∀ d ∈ gap, d = ' ') ∧ behind = gap ++ c :: rest ∧
    (c ≠ ' ' ∧ c ≠ '=' ∨ c = ' ' ∧ ∀ d ∈ rest.head?, d = '=')

theorem keeps_space_cons {behind rest : Text} {c : Char} :
    Keeps (' ' :: behind) c rest ↔
      Keeps behind c rest ∨ c = ' ' ∧ rest = behind ∧ ∀ d ∈ behind.head?, d = '=' := by
  constructor
  · rintro ⟨gap, spaced, whole, stands⟩
    cases gap with
    | nil =>
        obtain ⟨rfl, rfl⟩ := List.cons.inj whole
        rcases stands with ⟨solid, -⟩ | ⟨-, last⟩
        · exact absurd rfl solid
        · exact Or.inr ⟨rfl, rfl, last⟩
    | cons d gap =>
        obtain ⟨-, later⟩ := List.forall_mem_cons.mp spaced
        exact Or.inl ⟨gap, later, (List.cons.inj whole).2, stands⟩
  · rintro (⟨gap, spaced, rfl, stands⟩ | ⟨rfl, rfl, last⟩)
    · exact ⟨' ' :: gap, List.forall_mem_cons.mpr ⟨rfl, spaced⟩, rfl, stands⟩
    · exact ⟨[], by simp, rfl, Or.inr ⟨rfl, last⟩⟩

theorem keeps_cons {behind rest : Text} {c d : Char} (solid : d ≠ ' ') :
    Keeps (d :: behind) c rest ↔ d ≠ '=' ∧ c = d ∧ rest = behind := by
  constructor
  · rintro ⟨gap, spaced, whole, stands⟩
    cases gap with
    | nil =>
        obtain ⟨rfl, rfl⟩ := List.cons.inj whole
        rcases stands with ⟨-, other⟩ | ⟨space, -⟩
        · exact ⟨other, rfl, rfl⟩
        · exact absurd space solid
    | cons e gap =>
        obtain ⟨rfl, -⟩ := List.cons.inj whole
        exact absurd (spaced d List.mem_cons_self) solid
  · rintro ⟨other, rfl, rfl⟩
    exact ⟨[], by simp, rfl, Or.inl ⟨solid, other⟩⟩

/-- Something is assigned just if a character stands behind the sign that is no other sign. -/
theorem assignedEnd_eq_none_iff {behind : Text} :
    assignedEnd behind = none ↔ ∀ d ∈ behind.head?, d = '=' := by
  cases behind with
  | nil => simp [assignedEnd]
  | cons d behind =>
      rw [assignedEnd]
      split
      · next space => simp [space]
      · split <;> simp_all

theorem assignedEnd_eq_some_iff {behind rest : Text} {c : Char} :
    assignedEnd behind = some (c, rest) ↔ Keeps behind c rest := by
  induction behind with
  | nil => simp [assignedEnd, Keeps]
  | cons d behind ih =>
      rw [assignedEnd]
      by_cases space : d = ' '
      · subst space
        rw [if_pos rfl, keeps_space_cons, ← ih, ← assignedEnd_eq_none_iff]
        cases assignedEnd behind with
        | none => simp [eq_comm]
        | some cut => simp
      · rw [if_neg space, keeps_cons space]
        split
        · next sign => simp [sign]
        · next other => simp [other, eq_comm]

/-- **What `returned` finds**: the target at a word edge, the sign behind it, and the character that
the assignment keeps. -/
theorem returned_eq_some_iff {target text value rest : Text} {before : Option Char} :
    returned target before text = some (value, rest) ↔ isWordEdge before text = true ∧
      ∃ gap behind c, (∀ d ∈ gap, d = ' ') ∧ text = target ++ gap ++ '=' :: behind ∧
        Keeps behind c rest ∧ value = "return ".toList ++ [c] := by
  have solid : '=' ≠ ' ' := by decide
  constructor
  · intro found
    obtain ⟨⟨c, rest⟩, stands, eq⟩ := Option.map_eq_some_iff.mp found
    obtain ⟨rfl, rfl⟩ := Prod.mk.inj eq
    obtain ⟨behind, sign, ends⟩ := Option.bind_eq_some_iff.mp stands
    obtain ⟨edge, gap, spaced, whole⟩ := (behindSign_eq_some_iff solid).mp sign
    exact ⟨edge, gap, behind, c, spaced, whole, assignedEnd_eq_some_iff.mp ends, rfl⟩
  · rintro ⟨edge, gap, behind, c, spaced, whole, keeps, rfl⟩
    have sign := (behindSign_eq_some_iff solid).mpr ⟨edge, gap, spaced, whole⟩
    rw [returned, assignmentAt, sign, Option.bind_some, assignedEnd_eq_some_iff.mpr keeps]
    rfl

/-- There is a match just if a character stands behind the sign that is no other sign. -/
theorem returned_ne_none_iff {target text : Text} {before : Option Char} :
    returned target before text ≠ none ↔ isWordEdge before text = true ∧
      ∃ gap c behind, (∀ d ∈ gap, d = ' ') ∧ text = target ++ gap ++ '=' :: c :: behind ∧
        c ≠ '=' := by
  have assigns {behind : Text} :
      assignedEnd behind ≠ none ↔ ∃ c rest, behind = c :: rest ∧ c ≠ '=' := by
    rw [ne_eq, assignedEnd_eq_none_iff]
    cases behind <;> simp
  constructor
  · intro found
    obtain ⟨⟨value, rest⟩, stands⟩ := Option.ne_none_iff_exists'.mp found
    obtain ⟨edge, gap, behind, c, spaced, whole, keeps, -⟩ := returned_eq_some_iff.mp stands
    have ends := assignedEnd_eq_some_iff.mpr keeps
    obtain ⟨d, later, rfl, other⟩ := assigns.mp (ends ▸ Option.some_ne_none _)
    exact ⟨edge, gap, d, later, spaced, whole, other⟩
  · rintro ⟨edge, gap, c, behind, spaced, whole, other⟩
    obtain ⟨⟨d, rest⟩, ends⟩ := Option.ne_none_iff_exists'.mp (assigns.mpr ⟨c, behind, rfl, other⟩)
    have keeps := assignedEnd_eq_some_iff.mp ends
    rw [returned_eq_some_iff.mpr ⟨edge, gap, c :: behind, d, spaced, whole, keeps, rfl⟩]
    exact Option.some_ne_none _

/-! ### Comparisons -/

/-- A text is cut in one way only at the first of its signs. -/
theorem cut_at_sign {front other back behind : Text} (plain : '=' ∉ front)
    (plainOther : '=' ∉ other) (same : front ++ '=' :: back = other ++ '=' :: behind) :
    front = other ∧ back = behind := by
  induction front generalizing other with
  | nil =>
      cases other with
      | nil => exact ⟨rfl, (List.cons.inj same).2⟩
      | cons c other =>
          obtain ⟨rfl, -⟩ := List.cons.inj same
          exact absurd List.mem_cons_self plainOther
  | cons d front ih =>
      obtain ⟨here, later⟩ := not_or.mp (mt List.mem_cons.mpr plain)
      cases other with
      | nil => exact absurd (List.cons.inj same).1.symm here
      | cons c other =>
          obtain ⟨rfl, rest⟩ := List.cons.inj same
          obtain ⟨rfl, eq⟩ := ih later (fun mem => plainOther (List.mem_cons_of_mem _ mem)) rest
          exact ⟨rfl, eq⟩

theorem not_keeps_sign {back rest : Text} {c : Char} : ¬Keeps ('=' :: back) c rest := by
  intro keeps
  exact absurd rfl ((keeps_cons (by decide)).mp keeps).1

section Comparisons

variable {target gap : Text} {before : Option Char}

theorem signless_append (signless : '=' ∉ target) (spaced : ∀ c ∈ gap, c = ' ') :
    '=' ∉ target ++ gap := by
  intro mem
  rcases List.mem_append.mp mem with mem | mem
  · exact signless mem
  · exact absurd (spaced _ mem) (by decide)

/-- Where a comparison begins nothing is found, whatever the target is. -/
theorem returned_comparison (spaced : ∀ c ∈ gap, c = ' ') (back : Text) :
    returned target before (target ++ gap ++ '=' :: '=' :: back) = none := by
  rw [Option.eq_none_iff_forall_ne_some]
  rintro ⟨value, rest⟩ found
  obtain ⟨-, other, behind, c, spacedOther, whole, keeps, -⟩ := returned_eq_some_iff.mp found
  rw [List.append_assoc, List.append_assoc, List.append_cancel_left_eq] at whole
  have plain : ∀ {spaces : Text}, (∀ c ∈ spaces, c = ' ') → '=' ∉ spaces :=
    fun spaced mem => absurd (spaced _ mem) (by decide)
  obtain ⟨-, rfl⟩ := cut_at_sign (plain spaced) (plain spacedOther) whole
  exact not_keeps_sign keeps

-- An assignment to a target with a sign may take the front of a comparison away: in
-- `a=a=a == b`, what is compared is `a=a`, and `a=a` is assigned to two characters before.
variable (signless : '=' ∉ target)

include signless

/-- In front of two signs there is no assignment, if none of them belongs to the target. -/
theorem returned_of_signs {front : Text} (plain : '=' ∉ front) (back : Text) :
    returned target before (front ++ '=' :: '=' :: back) = none := by
  rw [Option.eq_none_iff_forall_ne_some]
  rintro ⟨value, rest⟩ found
  obtain ⟨-, other, behind, c, spacedOther, whole, keeps, -⟩ := returned_eq_some_iff.mp found
  obtain ⟨-, rfl⟩ := cut_at_sign plain (signless_append signless spacedOther) whole
  exact not_keeps_sign keeps

theorem returned_sign (nonempty : target ≠ []) (back : Text) :
    returned target before ('=' :: back) = none := by
  rw [Option.eq_none_iff_forall_ne_some]
  rintro ⟨value, rest⟩ found
  obtain ⟨-, other, behind, c, spacedOther, whole, -, -⟩ := returned_eq_some_iff.mp found
  obtain ⟨eq, -⟩ := cut_at_sign (List.not_mem_nil) (signless_append signless spacedOther) whole
  exact nonempty (List.append_eq_nil_iff.mp eq.symm).1

/-- A text up to two signs stays as it is, and behind them the edit goes on. -/
theorem edit_signs (nonempty : target ≠ []) {front : Text} (plain : '=' ∉ front) (back : Text) :
    edit (returned target) before (front ++ '=' :: '=' :: back) =
      front ++ '=' :: '=' :: edit (returned target) (some '=') back := by
  induction front generalizing before with
  | nil =>
      have first : returned target before ('=' :: '=' :: back) = none :=
        returned_of_signs signless plain back
      rw [List.nil_append, edit_of_none first, edit_of_none (returned_sign signless nonempty back)]
      rfl
  | cons c front ih =>
      have here : returned target before (c :: (front ++ '=' :: '=' :: back)) = none :=
        returned_of_signs signless plain back
      rw [List.cons_append, edit_of_none here, ih fun mem => plain (List.mem_cons_of_mem c mem)]
      rfl

variable (nonempty : target ≠ []) (starts : target.head? ≠ some ' ')
  (spaced : ∀ c ∈ gap, c = ' ')

include nonempty starts spaced

/-- A comparison does not begin inside an assignment, in front of what the assignment keeps. -/
theorem comparison_not_inside {front middle back space after behind : Text} {c : Char}
    (spacedBefore : ∀ d ∈ space, d = ' ') (spacedAfter : ∀ d ∈ after, d = ' ')
    (keeps : Keeps (after ++ c :: behind) c behind)
    (cut : target ++ space ++ '=' :: after = front ++ middle)
    (whole : target ++ gap ++ '=' :: '=' :: back = middle ++ c :: behind) : middle = [] := by
  rcases List.append_eq_append_iff.mp cut with ⟨more, -, later⟩ | ⟨more, ahead, rfl⟩
  · -- Behind the target there are spaces and a sign, and the target begins with neither.
    cases middle with
    | nil => rfl
    | cons d middle =>
        obtain ⟨e, name, rfl⟩ := List.exists_cons_of_ne_nil nonempty
        obtain ⟨rfl, -⟩ := List.cons.inj whole
        have mem : e ∈ '=' :: after := by
          rw [later]
          exact List.mem_append_right _ List.mem_cons_self
        rcases List.mem_cons.mp mem with rfl | mem
        · exact absurd List.mem_cons_self signless
        · exact absurd (congrArg some (spacedAfter e mem)) starts
  · -- The sign of the assignment would be the first of the two signs.
    have plain : '=' ∉ more := by
      intro mem
      refine signless_append signless spacedBefore ?_
      rw [ahead]
      exact List.mem_append_right front mem
    have split : more ++ '=' :: after ++ c :: behind = more ++ '=' :: (after ++ c :: behind) :=
      List.append_assoc _ _ _
    obtain ⟨-, eq⟩ := cut_at_sign (signless_append signless spaced) plain (whole.trans split)
    rw [← eq] at keeps
    exact absurd keeps not_keeps_sign

/-- An assignment that begins in front of a comparison ends there, or keeps its first character. -/
theorem exists_of_returned_before {front back value behind : Text}
    (found : returned target before (front ++ (target ++ gap ++ '=' :: '=' :: back)) =
      some (value, behind)) :
    (∃ later, behind = later ++ (target ++ gap ++ '=' :: '=' :: back)) ∨
      ∃ c, target ++ gap ++ '=' :: '=' :: back = c :: behind ∧ value = "return ".toList ++ [c] := by
  obtain ⟨-, space, signBehind, c, spacedBefore, whole, keeps, rfl⟩ :=
    returned_eq_some_iff.mp found
  have kept := keeps
  obtain ⟨after, spacedAfter, rfl, -⟩ := kept
  have split : target ++ space ++ '=' :: (after ++ c :: behind) =
      target ++ space ++ '=' :: after ++ c :: behind := (List.append_assoc _ ('=' :: after) _).symm
  rcases List.append_eq_append_iff.mp (whole.trans split) with
    ⟨middle, cut, rest⟩ | ⟨later, -, rest⟩
  · obtain rfl := comparison_not_inside signless nonempty starts spaced spacedBefore spacedAfter
      keeps cut rest
    exact Or.inr ⟨c, rest, rfl⟩
  · cases later with
    | nil => exact Or.inr ⟨c, rest.symm, rfl⟩
    | cons d later => exact Or.inl ⟨later, (List.cons.inj rest).2⟩

/-- **Comparisons stay.** Wherever the target stands in front of two signs in a text, it stands
there in the edited text, and what follows is edited by itself. -/
theorem edit_comparison (front back : Text) :
    ∃ edited, edit (returned target) before (front ++ (target ++ gap ++ '=' :: '=' :: back)) =
      edited ++ (target ++ gap ++ '=' :: '=' :: edit (returned target) (some '=') back) := by
  have plain := signless_append signless spaced
  have run : ∀ before text, ∀ front, text = front ++ (target ++ gap ++ '=' :: '=' :: back) →
      ∃ edited, edit (returned target) before text =
        edited ++ (target ++ gap ++ '=' :: '=' :: edit (returned target) (some '=') back) := by
    intro before text
    induction before, text using (finds_assignment target).proper.byPlaces with
    | done before =>
        intro front whole
        exact absurd whole.symm (by simp)
    | kept before c rest none ih =>
        intro front whole
        cases front with
        | nil =>
            rw [List.nil_append] at whole
            exact ⟨[], by rw [whole, edit_signs signless nonempty plain, List.nil_append]⟩
        | cons d front =>
            obtain ⟨edited, eq⟩ := ih front (List.cons.inj whole).2
            exact ⟨c :: edited, by rw [edit_of_none none, eq, List.cons_append]⟩
    | found before taken value behind solid found ih =>
        intro front whole
        have place := found
        rw [whole] at place
        rw [edit_of_some found solid]
        rcases exists_of_returned_before signless nonempty starts spaced place with
          ⟨later, rest⟩ | ⟨c, rest, rfl⟩
        · obtain ⟨edited, eq⟩ := ih later rest
          exact ⟨value ++ edited, by rw [eq, List.append_assoc value]⟩
        · obtain ⟨d, name, rfl⟩ := List.exists_cons_of_ne_nil nonempty
          obtain ⟨rfl, rfl⟩ := List.cons.inj rest
          have later : '=' ∉ name ++ gap := fun mem => plain (List.mem_cons_of_mem d mem)
          have stays : edit (returned (d :: name)) taken.getLast? _ = _ :=
            edit_signs signless nonempty later back
          exact ⟨"return ".toList,
            (congrArg ("return ".toList ++ [d] ++ ·) stays).trans (List.append_assoc _ _ _)⟩
  exact run before _ front rfl

end Comparisons

/-- **Assignments to any target are found by its name alone.** The rule for a target exists whatever
its name is made of, unless the name is so long that the pattern is heavier than the limit: without
a limit it always exists, and within the usual one if the name takes no more than 327637 bytes. It
is the edit, from the left, that finds the name at a word edge with a sign behind it. There is a
match just if a character follows the sign that is no other sign, and the match reaches up to the
character that the assignment keeps, which stays behind the return. So a comparison is no match; and
if no sign belongs to the name and it does not begin with a space, the edited text holds every
comparison of the text as it was. -/
theorem assignToReturn_scans (target : Text) :
    ∃ rule,
      assignToReturn target =
        (if target.byteLength ≤ 327637 then .ok rule
        else .error (.badPattern assignToReturnName .tooHeavy)) ∧
      (∀ limit, assignToReturn target limit =
        if limit.any (· < 1352 + 32 * target.byteLength) then
          .error (.badPattern assignToReturnName .tooHeavy)
        else .ok rule) ∧
      (∀ indent body, rule.apply indent body = edit (returned target) none body) ∧
      (∀ before text, returned target before text ≠ none ↔ isWordEdge before text = true ∧
        ∃ gap c behind, (∀ d ∈ gap, d = ' ') ∧ text = target ++ gap ++ '=' :: c :: behind ∧
          c ≠ '=') ∧
      (∀ before text value rest, returned target before text = some (value, rest) ↔
        isWordEdge before text = true ∧
        ∃ gap behind c, (∀ d ∈ gap, d = ' ') ∧ text = target ++ gap ++ '=' :: behind ∧
          Keeps behind c rest ∧ value = "return ".toList ++ [c]) ∧
      ∀ gap, (∀ c ∈ gap, c = ' ') →
        (∀ before back, returned target before (target ++ gap ++ '=' :: '=' :: back) = none) ∧
        (target ≠ [] → target.head? ≠ some ' ' → '=' ∉ target → ∀ indent front back,
          ∃ edited, rule.apply indent (front ++ (target ++ gap ++ '=' :: '=' :: back)) =
            edited ++ (target ++ gap ++ '=' :: '=' :: edit (returned target) (some '=') back)) := by
  refine ⟨ofTarget target, assignToReturn_within target, assignToReturn_eq target,
    apply_ofTarget target, fun _ _ => returned_ne_none_iff, fun _ _ _ _ => returned_eq_some_iff, ?_⟩
  intro gap spaced
  refine ⟨fun _ => returned_comparison spaced, ?_⟩
  intro nonempty starts signless indent front back
  rw [apply_ofTarget]
  exact edit_comparison signless nonempty starts spaced front back

/-- A target that is too long for the usual limit. -/
theorem assignToReturn_refuses_long :
    assignToReturn (List.replicate 330000 'a') =
        .error (.badPattern assignToReturnName .tooHeavy) ∧
      ¬∃ rule, assignToReturn (List.replicate 330000 'a') = .ok rule := by
  have refused : assignToReturn (List.replicate 330000 'a') =
      .error (.badPattern assignToReturnName .tooHeavy) := by
    rw [assignToReturn_within, byteLength_replicate]
    exact if_neg (by decide)
  refine ⟨refused, ?_⟩
  rintro ⟨rule, made⟩
  rw [refused] at made
  cases made

end CrossShade.Rule
