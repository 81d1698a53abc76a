import CrossShade.Proofs.BodyRules
import CrossShade.Proofs.Edits

/-!
What the patterns of the rules find, without patterns. Each of them begins with something that is
read off the text at once; behind it stand runs of spaces, which are taken as far as they go, and
the end is found by one look along the text.

* `finds_assignment`, `finds_statementEnd`, `finds_product`: the finders `returned`, `broken` and
  `multiplied` tell the first matches of the three patterns.
-/

namespace CrossShade.Text

/-- Whether exactly one side of a place is a word character. -/
def isWordEdge (before : Option Char) (text : Text) : Bool :=
  before.any isWordChar != text.head?.any isWordChar

/-- The spaces at the start of a text. -/
def leadingSpaces (text : Text) : Text :=
  text.takeWhile (· == ' ')

/-- The text without the spaces at its start. -/
def dropSpaces (text : Text) : Text :=
  text.dropWhile (· == ' ')

section Spaces

variable {c : Char} {text : Text}

@[simp] theorem dropSpaces_space (text : Text) : dropSpaces (' ' :: text) = dropSpaces text := rfl

theorem dropSpaces_cons (solid : c ≠ ' ') (text : Text) : dropSpaces (c :: text) = c :: text :=
  List.dropWhile_cons_of_neg (by simpa using solid)

theorem leadingSpaces_cons (solid : c ≠ ' ') (text : Text) : leadingSpaces (c :: text) = [] :=
  List.takeWhile_cons_of_neg (by simpa using solid)

@[simp] theorem leadingSpaces_append_dropSpaces (text : Text) :
    leadingSpaces text ++ dropSpaces text = text :=
  List.takeWhile_append_dropWhile

theorem eq_space_of_mem_leadingSpaces (mem : c ∈ leadingSpaces text) : c = ' ' := by
  simpa using List.mem_takeWhile_imp mem

theorem head?_dropSpaces (text : Text) : (dropSpaces text).head? ≠ some ' ' := by
  intro space
  have solid := List.head?_dropWhile_not (· == ' ') text
  rw [show (text.dropWhile (· == ' ')).head? = some ' ' from space] at solid
  simp at solid

/-- What is left of a text stands behind spaces and does not begin with one. -/
theorem dropSpaces_eq_iff {rest : Text} (solid : rest.head? ≠ some ' ') :
    dropSpaces text = rest ↔ ∃ gap, (∀ c ∈ gap, c = ' ') ∧ text = gap ++ rest := by
  constructor
  · rintro rfl
    exact ⟨leadingSpaces text, fun c => eq_space_of_mem_leadingSpaces,
      (leadingSpaces_append_dropSpaces text).symm⟩
  · rintro ⟨gap, spaced, rfl⟩
    induction gap with
    | nil =>
        cases rest with
        | nil => rfl
        | cons c rest => exact dropSpaces_cons (by simpa using solid) rest
    | cons c gap ih =>
        obtain ⟨rfl, later⟩ := List.forall_mem_cons.mp spaced
        exact ih later

/-- A character that is no space keeps the spaces in front of it apart from the rest. -/
theorem dropSpaces_append_cons (solid : c ≠ ' ') (front back : Text) :
    dropSpaces (front ++ c :: back) = dropSpaces front ++ c :: back := by
  induction front with
  | nil => exact dropSpaces_cons solid back
  | cons d front ih =>
      by_cases space : d = ' '
      · subst space
        exact ih
      · rw [List.cons_append, dropSpaces_cons space, dropSpaces_cons space, List.cons_append]

end Spaces

end CrossShade.Text

namespace CrossShade.Pattern

theorem ways_concat_append (front back : List Regex) (next : Thread → Ways) :
    (Regex.concat (front ++ back)).ways next =
      (Regex.concat front).ways ((Regex.concat back).ways next) := by
  induction front with
  | nil => rfl
  | cons first front ih => rw [List.cons_append, ways_concat_cons, ways_concat_cons, ih]

@[simp] theorem Cursor.rest_advance (cursor : Cursor) (taken rest : Text) :
    (cursor.advance taken rest).rest = rest := rfl

theorem Cursor.step_eq_advance (cursor : Cursor) (c : Char) (rest : Text) :
    cursor.step c rest = cursor.advance [c] rest := rfl

end CrossShade.Pattern

namespace CrossShade.Rule

open CrossShade.Pattern CrossShade.Comment CrossShade.Text

/-- A rule is an edit, if a finder tells the matches of its pattern. -/
theorem apply_eq_edit {rule : Rule} {indent : Text} {find : Finder}
    (steady : rule.pattern.regex.isSteady = true)
    (finds : Finds rule.pattern.regex
      (Template.expand rule.pattern.names (rule.template indent)) find) (body : Text) :
    rule.apply indent body = edit find none body :=
  replaceAll_eq_edit steady finds body

/-! ### Spaces -/

section Spaces

variable {next : Thread → Ways} {thread : Thread}

/-- The thread behind the spaces at its place. -/
def pastSpaces (thread : Thread) : Thread :=
  past thread (leadingSpaces thread.cursor.rest, dropSpaces thread.cursor.rest)

theorem pastSpaces_space {rest : Text} (here : thread.cursor.rest = ' ' :: rest) :
    pastSpaces thread = pastSpaces (thread.step ' ' rest) := by
  rw [pastSpaces, pastSpaces, past_step, here]
  rfl

theorem pastSpaces_of_solid (solid : ∀ rest, thread.cursor.rest ≠ ' ' :: rest) :
    pastSpaces thread = thread := by
  rw [pastSpaces]
  cases here : thread.cursor.rest with
  | nil =>
      have start := past_nil thread
      rwa [here] at start
  | cons c rest =>
      have other : c ≠ ' ' := by
        rintro rfl
        exact solid rest here
      have start := past_nil thread
      rwa [here, ← dropSpaces_cons other, ← leadingSpaces_cons other rest] at start

/-- **All spaces are taken**, if what follows them cannot succeed in front of a space where it fails
behind it. -/
theorem first_spaces
    (recede : ∀ {thread : Thread} {rest}, thread.cursor.rest = ' ' :: rest →
      (next (thread.step ' ' rest)).first = none → (next thread).first = none)
    (thread : Thread) :
    (spaces.ways next thread).first = (next (pastSpaces thread)).first ∧
      ((next (pastSpaces thread)).first = none → (next thread).first = none) := by
  have run : ∀ (text : Text) (thread : Thread), thread.cursor.rest = text →
      (spanWays true (.single ' ') next text thread).first = (next (pastSpaces thread)).first ∧
        ((next (pastSpaces thread)).first = none → (next thread).first = none) := by
    intro text
    induction text with
    | nil =>
        intro thread here
        rw [pastSpaces_of_solid (by simp [here])]
        exact ⟨rfl, id⟩
    | cons c rest ih =>
        intro thread here
        rw [spanWays, Ways.first_order_greedy]
        by_cases space : c = ' '
        · subst space
          obtain ⟨first, fails⟩ := ih (thread.step ' ' rest) rfl
          rw [if_pos (CharSet.has_single.mpr rfl), first, pastSpaces_space here]
          have back := fun nothing => recede here (fails nothing)
          refine ⟨?_, back⟩
          cases found : (next (pastSpaces (thread.step ' ' rest))).first with
          | none => rw [Option.none_or, back found]
          | some stop => rfl
        · rw [if_neg (mt CharSet.has_single.mp space), Ways.first_none, Option.none_or,
            pastSpaces_of_solid (by simp [here, space])]
          exact ⟨rfl, id⟩
  exact run thread.cursor.rest thread rfl

/-- In front of a character that is no space there is nothing to choose. -/
theorem first_spaces_char {c : Char} (solid : c ≠ ' ') (thread : Thread) :
    (spaces.ways ((Regex.char c).ways next) thread).first =
      ((Regex.char c).ways next (pastSpaces thread)).first := by
  refine (first_spaces (fun here _ => ?_) thread).1
  rw [ways_char_cons here, if_neg (Ne.symm solid), Ways.first_none]

end Spaces

/-! ### Ends of statements -/

/-- The end of a statement and the spaces behind it become the end of a line and the indentation. -/
def broken (indent : Text) : Finder
  | _, ';' :: rest => some (";\n".toList ++ indent, dropSpaces rest)
  | _, _ => none

theorem broken_eq_none {indent : Text} {before : Option Char} {text : Text}
    (other : ∀ rest, text ≠ ';' :: rest) : broken indent before text = none := by
  unfold broken
  split
  · next rest => exact absurd rfl (other rest)
  · rfl

theorem first_statementEnd {cursor : Cursor} {rest : Text} (here : cursor.rest = ';' :: rest) :
    statementEnd.first cursor =
      some ⟨cursor.advance (';' :: leadingSpaces rest) (dropSpaces rest), []⟩ := by
  have never : ∀ {thread : Thread} {rest}, thread.cursor.rest = ' ' :: rest →
      (Ways.one (thread.step ' ' rest)).first = none → (Ways.one thread).first = none :=
    fun _ nothing => absurd nothing (Option.some_ne_none _)
  have stop : statementEnd.ways .one ⟨cursor, []⟩ =
      spaces.ways .one (Thread.step ⟨cursor, []⟩ ';' rest) := by
    rw [statementEnd, ways_concat_cons, ways_char_cons here, if_pos rfl]
    rfl
  rw [Regex.first, stop, (first_spaces never _).1, Ways.first_one, pastSpaces, past_step]
  rfl

theorem first_statementEnd_eq_none {cursor : Cursor} (other : ∀ rest, cursor.rest ≠ ';' :: rest) :
    statementEnd.first cursor = none := by
  have nothing : statementEnd.ways .one ⟨cursor, []⟩ = .none := by
    rw [statementEnd, ways_concat_cons]
    cases here : cursor.rest with
    | nil => exact ways_set_nil here
    | cons c rest =>
        rw [ways_char_cons here, if_neg]
        rintro rfl
        exact other rest here
  rw [Regex.first, nothing, Ways.first_none]

theorem finds_statementEnd {value : Match → Text} {indent : Text}
    (constant : ∀ found, value found = ";\n".toList ++ indent) :
    Finds statementEnd value (broken indent) where
  none := by
    intro cursor nothing
    refine first_statementEnd_eq_none fun rest here => ?_
    rw [here] at nothing
    cases nothing
  some := by
    intro cursor result behind found
    unfold broken at found
    split at found
    · next rest here =>
        obtain ⟨rfl, rfl⟩ := Prod.mk.inj (Option.some.inj found)
        refine ⟨';' :: leadingSpaces rest, [], List.cons_ne_nil _ _, ?_,
          first_statementEnd here, (constant _).symm⟩
        rw [here, List.cons_append, leadingSpaces_append_dropSpaces]
    · cases found

/-! ### Names with a sign behind them -/

/-- What follows the name and the sign that a text starts with. Spaces may stand between the two,
and the name begins at a word edge. -/
def behindSign (name : Text) (sign : Char) (before : Option Char) (text : Text) : Option Text :=
  if isWordEdge before text && name.isPrefixOf text then
    match dropSpaces (text.drop name.length) with
    | c :: behind => if c = sign then some behind else none
    | [] => none
  else none

/-- The thread behind a name and a sign. `close` closes a group that holds the name. -/
def pastSign (close : Thread → Thread) (name : Text) (sign : Char) (cursor : Cursor)
    (behind : Text) : Thread :=
  (pastSpaces (close ⟨cursor.advance name (cursor.rest.drop name.length), []⟩)).step sign behind

section Signs

variable {name : Text} {sign : Char} {before : Option Char} {text behind : Text} {cursor : Cursor}
  {close : Thread → Thread}

theorem exists_of_behindSign (found : behindSign name sign before text = some behind) :
    isWordEdge before text = true ∧ ∃ later, text = name ++ later ∧
      dropSpaces later = sign :: behind := by
  unfold behindSign at found
  split at found
  · next starts =>
      obtain ⟨edge, occurs⟩ := Bool.and_eq_true_iff.mp starts
      obtain ⟨later, rfl⟩ := List.isPrefixOf_iff_prefix.mp occurs
      rw [List.drop_left] at found
      split at found
      · next c rest here =>
          split at found
          · next same =>
              obtain rfl := Option.some.inj found
              exact ⟨edge, later, rfl, same ▸ here⟩
          · cases found
      · cases found
  · cases found

theorem behindSign_eq_some_iff (solid : sign ≠ ' ') :
    behindSign name sign before text = some behind ↔ isWordEdge before text = true ∧
      ∃ gap, (∀ c ∈ gap, c = ' ') ∧ text = name ++ gap ++ sign :: behind := by
  have stops : (sign :: behind).head? ≠ some ' ' := by simpa using solid
  constructor
  · intro found
    obtain ⟨edge, later, rfl, stop⟩ := exists_of_behindSign found
    obtain ⟨gap, spaced, rfl⟩ := (dropSpaces_eq_iff stops).mp stop
    exact ⟨edge, gap, spaced, (List.append_assoc _ _ _).symm⟩
  · rintro ⟨edge, gap, spaced, rfl⟩
    have stop : dropSpaces (gap ++ sign :: behind) = sign :: behind :=
      (dropSpaces_eq_iff stops).mpr ⟨gap, spaced, rfl⟩
    rw [List.append_assoc] at edge ⊢
    rw [behindSign, edge, List.isPrefixOf_iff_prefix.mpr (List.prefix_append _ _), List.drop_left,
      stop, Bool.and_self, if_pos rfl]
    exact if_pos rfl

/-- **A name with a sign behind it** is found in one way, and what follows decides. -/
theorem first_sign (name : Text) (solid : sign ≠ ' ')
    (keeps : ∀ thread, (close thread).cursor = thread.cursor) (next : Thread → Ways)
    (cursor : Cursor) :
    ((Regex.anchor .wordEdge).ways ((Regex.literal name).ways fun reached =>
        spaces.ways ((Regex.char sign).ways next) (close reached)) ⟨cursor, []⟩).first =
      (behindSign name sign cursor.before cursor.rest).bind fun behind =>
        (next (pastSign close name sign cursor behind)).first := by
  have edge : (Regex.anchor .wordEdge).ways ((Regex.literal name).ways fun reached =>
        spaces.ways ((Regex.char sign).ways next) (close reached)) ⟨cursor, []⟩ =
      if isWordEdge cursor.before cursor.rest then
        (Regex.literal name).ways (fun reached =>
          spaces.ways ((Regex.char sign).ways next) (close reached)) ⟨cursor, []⟩
      else .none := rfl
  rw [edge, behindSign]
  by_cases starts : isWordEdge cursor.before cursor.rest = true
  · rw [if_pos starts, starts, Bool.true_and]
    by_cases occurs : name <+: cursor.rest
    · obtain ⟨later, here⟩ := occurs
      have behindName : (Regex.literal name).ways (fun reached =>
          spaces.ways ((Regex.char sign).ways next) (close reached)) ⟨cursor, []⟩ =
            spaces.ways ((Regex.char sign).ways next) (close ⟨cursor.advance name later, []⟩) :=
        ways_literal here.symm
      have rest : (close ⟨cursor.advance name later, []⟩).cursor.rest = later := by
        rw [keeps]
        rfl
      rw [behindName, first_spaces_char solid, if_pos (by simp [← here])]
      simp only [pastSign, ← here, List.drop_left]
      have place : (pastSpaces (close ⟨cursor.advance name later, []⟩)).cursor.rest =
          dropSpaces later := by
        rw [pastSpaces, rest]
        rfl
      cases stop : dropSpaces later with
      | nil =>
          rw [Regex.char, ways_set_nil (place.trans stop)]
          rfl
      | cons c behind =>
          rw [ways_char_cons (place.trans stop)]
          dsimp only
          split
          · next same => rw [same, Option.bind_some]
          · rfl
    · rw [ways_literal_eq_none occurs, if_neg (by simpa using occurs)]
      rfl
  · rw [if_neg starts, if_neg (by simp [starts])]
    rfl

/-- Where a name and a sign have been passed. -/
theorem exists_pastSign (keeps : ∀ thread, (close thread).cursor = thread.cursor)
    (found : behindSign name sign cursor.before cursor.rest = some behind) :
    ∃ gap, (∀ c ∈ gap, c = ' ') ∧ cursor.rest = name ++ gap ++ sign :: behind ∧
      (pastSign close name sign cursor behind).cursor =
        cursor.advance (name ++ gap ++ [sign]) behind := by
  obtain ⟨-, later, here, stop⟩ := exists_of_behindSign found
  refine ⟨leadingSpaces later, fun c => eq_space_of_mem_leadingSpaces, ?_, ?_⟩
  · rw [here, List.append_assoc, ← stop, leadingSpaces_append_dropSpaces]
  · have drop : cursor.rest.drop name.length = later := by rw [here, List.drop_left]
    have rest : (cursor.advance name later).rest = later := rfl
    rw [pastSign, pastSpaces, past, keeps, drop, rest, Thread.step, Cursor.step_eq_advance,
      Cursor.advance_advance, Cursor.advance_advance, List.append_assoc]

end Signs

/-! ### Products -/

/-- A text cut at the end of its first statement, if that stands on its first line. -/
def operandEnd : Text → Option (Text × Text)
  | [] => none
  | c :: rest =>
      if c = ';' then some ([], rest)
      else if c = '\n' then none
      else (operandEnd rest).map (push c)

/-- The operand of the product with `matrix` that a text starts with, and what is left behind the
end of its statement. -/
def productAt (matrix : Text) (before : Option Char) (text : Text) : Option (Text × Text) :=
  (behindSign matrix '*' before text).bind fun behind => operandEnd (dropSpaces behind)

/-- The call that takes the place of a product. -/
def call (operand matrix : Text) : Text :=
  "mul( ".toList ++ (operand ++ (", ".toList ++ (matrix ++ " );".toList)))

/-- Products with `matrix` become calls. -/
def multiplied (matrix : Text) : Finder := fun before text =>
  (productAt matrix before text).map fun cut => (call cut.1 matrix, cut.2)

theorem operandEnd_eq_some_iff {text operand rest : Text} :
    operandEnd text = some (operand, rest) ↔
      text = operand ++ ';' :: rest ∧ ';' ∉ operand ∧ '\n' ∉ operand := by
  induction text generalizing operand with
  | nil => simp [operandEnd]
  | cons c text ih =>
      rw [operandEnd]
      by_cases stop : c = ';'
      · subst stop
        cases operand with
        | nil => simp
        | cons d operand => simp_all [eq_comm]
      · by_cases lineEnd : c = '\n'
        · subst lineEnd
          cases operand with
          | nil => simp
          | cons d operand => simp_all [eq_comm]
        · rw [if_neg stop, if_neg lineEnd, Option.map_eq_some_iff]
          cases operand with
          | nil => simp [push, stop]
          | cons d operand =>
              simp only [push, Prod.exists, Prod.mk.injEq, List.cons.injEq, List.cons_append,
                List.mem_cons, not_or]
              constructor
              · rintro ⟨inner, _, ends, ⟨rfl, rfl⟩, rfl⟩
                obtain ⟨whole, noStop, oneLine⟩ := ih.mp ends
                exact ⟨⟨rfl, whole⟩, ⟨Ne.symm stop, noStop⟩, Ne.symm lineEnd, oneLine⟩
              · rintro ⟨⟨rfl, whole⟩, ⟨-, noStop⟩, -, oneLine⟩
                exact ⟨operand, rest, ih.mpr ⟨whole, noStop, oneLine⟩, ⟨rfl, rfl⟩, rfl⟩

theorem head?_append_stop {operand rest : Text} :
    (operand ++ ';' :: rest).head? ≠ some ' ' ↔ operand.head? ≠ some ' ' := by
  cases operand with
  | nil => simp
  | cons c operand => rfl

/-- **What `multiplied` finds**: the matrix at a word edge, the sign behind it, and the operand up
to the first end of a statement, which stands on the same line. -/
theorem multiplied_eq_some_iff {matrix text value rest : Text} {before : Option Char} :
    multiplied matrix before text = some (value, rest) ↔ isWordEdge before text = true ∧
      ∃ gap after operand, (∀ c ∈ gap ++ after, c = ' ') ∧ operand.head? ≠ some ' ' ∧
        text = matrix ++ gap ++ '*' :: (after ++ (operand ++ ';' :: rest)) ∧
        ';' ∉ operand ∧ '\n' ∉ operand ∧ value = call operand matrix := by
  have solid : '*' ≠ ' ' := by decide
  constructor
  · intro found
    obtain ⟨⟨operand, rest⟩, stands, eq⟩ := Option.map_eq_some_iff.mp found
    obtain ⟨rfl, rfl⟩ := Prod.mk.inj eq
    obtain ⟨behind, sign, ends⟩ := Option.bind_eq_some_iff.mp stands
    obtain ⟨edge, gap, spaced, rfl⟩ := (behindSign_eq_some_iff solid).mp sign
    obtain ⟨inner, unended, oneLine⟩ := operandEnd_eq_some_iff.mp ends
    have starts := inner ▸ head?_dropSpaces behind
    obtain ⟨after, spacedAfter, rfl⟩ := (dropSpaces_eq_iff starts).mp inner
    exact ⟨edge, gap, after, operand, List.forall_mem_append.mpr ⟨spaced, spacedAfter⟩,
      head?_append_stop.mp starts, rfl, unended, oneLine, rfl⟩
  · rintro ⟨edge, gap, after, operand, spaced, starts, whole, unended, oneLine, rfl⟩
    obtain ⟨spacedGap, spacedAfter⟩ := List.forall_mem_append.mp spaced
    have sign := (behindSign_eq_some_iff solid).mpr ⟨edge, gap, spacedGap, whole⟩
    have inner : dropSpaces (after ++ (operand ++ ';' :: rest)) = operand ++ ';' :: rest :=
      (dropSpaces_eq_iff (head?_append_stop.mpr starts)).mpr ⟨after, spacedAfter, rfl⟩
    have ends := operandEnd_eq_some_iff.mpr ⟨inner, unended, oneLine⟩
    rw [multiplied, productAt, sign, Option.bind_some, ends]
    rfl

/-- What follows the spaces behind the sign of a product. -/
def operandWays : Thread → Ways :=
  (Regex.group 2 (.span false (.except '\n'))).ways ((Regex.char ';').ways .one)

/-- The thread behind an operand and the end of its statement. -/
def pastOperand (thread : Thread) (cut : Text × Text) : Thread :=
  ((past thread (cut.1, ';' :: cut.2)).close 2 thread.cursor).step ';' cut.2

theorem first_operandWays (thread : Thread) :
    (operandWays thread).first = (operandEnd thread.cursor.rest).map (pastOperand thread) := by
  have run : ∀ (text : Text) (start : Cursor) (thread : Thread), thread.cursor.rest = text →
      (spanWays false (.except '\n')
          (fun reached => (Regex.char ';').ways .one (reached.close 2 start)) text thread).first =
        (operandEnd text).map fun cut =>
          ((past thread (cut.1, ';' :: cut.2)).close 2 start).step ';' cut.2 := by
    intro text start
    induction text with
    | nil =>
        intro thread here
        have nothing : (Regex.char ';').ways .one (thread.close 2 start) = .none :=
          ways_set_nil here
        rw [spanWays, Ways.first_order_lazy, nothing]
        rfl
    | cons c rest ih =>
        intro thread here
        have leave : (Regex.char ';').ways .one (thread.close 2 start) =
            if c = ';' then .one ((thread.close 2 start).step c rest) else .none :=
          ways_char_cons here
        rw [spanWays, Ways.first_order_lazy, leave, operandEnd]
        by_cases stop : c = ';'
        · subst stop
          have start := past_nil thread
          rw [here] at start
          rw [if_pos rfl, if_pos rfl, Ways.first_one, Option.some_or, Option.map_some, start]
        · rw [if_neg stop, if_neg stop, Ways.first_none, Option.none_or]
          by_cases lineEnd : c = '\n'
          · rw [if_neg (mt CharSet.has_except.mp (not_not_intro lineEnd)), if_pos lineEnd]
            rfl
          · rw [if_pos (CharSet.has_except.mpr lineEnd), if_neg lineEnd,
              ih (thread.step c rest) rfl, Option.map_map]
            refine congrArg (Option.map · (operandEnd rest)) (funext fun cut => ?_)
            rw [past_step]
            rfl
  exact run thread.cursor.rest thread.cursor thread rfl

/-- A space in front of an operand makes no difference to whether it ends. -/
theorem first_spaces_operandWays (thread : Thread) :
    (spaces.ways operandWays thread).first =
      (operandEnd (dropSpaces thread.cursor.rest)).map (pastOperand (pastSpaces thread)) := by
  refine (first_spaces (fun {thread rest} here nothing => ?_) thread).1.trans (first_operandWays _)
  rw [first_operandWays, Option.map_eq_none_iff] at nothing ⊢
  rw [here, operandEnd, if_neg (by decide), if_neg (by decide), Option.map_eq_none_iff]
  exact nothing

section Products

variable {matrix operand rest : Text} {cursor : Cursor}

/-- The thread behind the sign of a product, whose first group holds the matrix. -/
def pastTimes (matrix : Text) (cursor : Cursor) (behind : Text) : Thread :=
  pastSign (·.close 1 cursor) matrix '*' cursor behind

theorem first_product (matrix : Text) (cursor : Cursor) :
    (product matrix).first cursor =
      (behindSign matrix '*' cursor.before cursor.rest).bind fun behind =>
        (operandEnd (dropSpaces behind)).map
          (pastOperand (pastSpaces (pastTimes matrix cursor behind))) := by
  have solid : '*' ≠ ' ' := by decide
  have keeps : ∀ thread : Thread, (thread.close 1 cursor).cursor = thread.cursor := fun _ => rfl
  have first := first_sign matrix solid keeps (spaces.ways operandWays) cursor
  simp only [first_spaces_operandWays] at first
  exact first

theorem first_product_of_none (nothing : productAt matrix cursor.before cursor.rest = none) :
    (product matrix).first cursor = none := by
  rw [first_product, Option.bind_eq_none_iff]
  intro behind sign
  rw [productAt, Option.bind_eq_none_iff] at nothing
  rw [nothing behind sign, Option.map_none]

/-- An operand does not reach beyond its statement. -/
theorem unended_of_productAt {before : Option Char} {text : Text}
    (found : productAt matrix before text = some (operand, rest)) : ';' ∉ operand := by
  obtain ⟨behind, -, ends⟩ := Option.bind_eq_some_iff.mp found
  exact (operandEnd_eq_some_iff.mp ends).2.1

/-- **The first match of a product**, where there is one, and what its groups have matched. -/
theorem first_product_of_some
    (found : productAt matrix cursor.before cursor.rest = some (operand, rest)) :
    ∃ before behind captures, (∀ c ∈ before ++ behind, c = ' ') ∧
      cursor.rest = (matrix ++ before ++ '*' :: behind ++ operand ++ [';']) ++ rest ∧
      (product matrix).first cursor =
        some ⟨cursor.advance (matrix ++ before ++ '*' :: behind ++ operand ++ [';']) rest,
          captures⟩ ∧
      ∀ taken, Match.group? ⟨taken, captures⟩ 1 = some matrix ∧
        Match.group? ⟨taken, captures⟩ 2 = some operand := by
  obtain ⟨later, sign, ends⟩ := Option.bind_eq_some_iff.mp found
  have keeps : ∀ thread : Thread, (thread.close 1 cursor).cursor = thread.cursor := fun _ => rfl
  obtain ⟨before, spaced, here, place⟩ := exists_pastSign keeps sign
  have inner := (operandEnd_eq_some_iff.mp ends).1
  have wholeLater : later = leadingSpaces later ++ (operand ++ ';' :: rest) := by
    rw [← inner, leadingSpaces_append_dropSpaces]
  -- The place where the operand begins.
  let start := (pastSpaces (pastTimes matrix cursor later)).cursor
  have startEq : start = cursor.advance (matrix ++ before ++ '*' :: leadingSpaces later)
      (dropSpaces later) := by
    simp only [start, pastSpaces, past, pastTimes, place, Cursor.rest_advance,
      Cursor.advance_advance, List.append_assoc, List.singleton_append]
  refine ⟨before, leadingSpaces later, [⟨2, start, start.advance operand (';' :: rest)⟩,
    ⟨1, cursor, cursor.advance matrix (cursor.rest.drop matrix.length)⟩], ?_, ?_, ?_, ?_⟩
  · intro c mem
    exact (List.mem_append.mp mem).elim (spaced c) eq_space_of_mem_leadingSpaces
  · rw [here]
    conv_lhs => rw [wholeLater]
    simp
  · have first : (product matrix).first cursor =
        some ⟨(start.advance operand (';' :: rest)).step ';' rest,
          [⟨2, start, start.advance operand (';' :: rest)⟩,
            ⟨1, cursor, cursor.advance matrix (cursor.rest.drop matrix.length)⟩]⟩ := by
      rw [first_product, sign, Option.bind_some, ends]
      rfl
    rw [first]
    simp only [startEq, Cursor.step_eq_advance, Cursor.advance_advance, List.append_assoc]
  · intro taken
    have name : cursor.rest = matrix ++ cursor.rest.drop matrix.length := by simp [here]
    exact ⟨congrArg some (Cursor.Reaches.textTo_eq cursor name),
      congrArg some (Cursor.Reaches.textTo_eq start (startEq ▸ inner))⟩

theorem expand_mul_eq_call {found : Match} (name : found.group? 1 = some matrix)
    (group : found.group? 2 = some operand) :
    Template.expand [] "mul( $\x7b2\x7d, $\x7b1\x7d );".toList found = call operand matrix := by
  rw [expand_mul, name, group]
  rfl

theorem finds_product (matrix : Text) :
    Finds (product matrix) (Template.expand [] "mul( $\x7b2\x7d, $\x7b1\x7d );".toList)
      (multiplied matrix) where
  none nothing := first_product_of_none (Option.map_eq_none_iff.mp nothing)
  some := by
    intro cursor result behind found
    obtain ⟨⟨operand, rest⟩, stands, eq⟩ := Option.map_eq_some_iff.mp found
    obtain ⟨rfl, rfl⟩ := Prod.mk.inj eq
    obtain ⟨before, after, captures, -, here, first, groups⟩ := first_product_of_some stands
    refine ⟨matrix ++ before ++ '*' :: after ++ operand ++ [';'], captures,
      List.append_ne_nil_of_right_ne_nil _ (List.cons_ne_nil _ _), here, first, ?_⟩
    obtain ⟨name, group⟩ := groups (matrix ++ before ++ '*' :: after ++ operand ++ [';'])
    exact (expand_mul_eq_call name group).symm

end Products

/-! ### Assignments -/

/-- The character that is assigned, behind the sign and the spaces that follow it, and what is left
behind it. Where nothing but spaces stands in front of another sign or the end, the last of them
counts. -/
def assignedEnd : Text → Option (Char × Text)
  | [] => none
  | c :: rest =>
      if c = ' ' then (assignedEnd rest).or (some (' ', rest))
      else if c = '=' then none
      else some (c, rest)

/-- The first character of what a text assigns to `target` at its start, and what is left behind
it. -/
def assignmentAt (target : Text) (before : Option Char) (text : Text) : Option (Char × Text) :=
  (behindSign target '=' before text).bind assignedEnd

/-- Assignments to `target` become returns. -/
def returned (target : Text) : Finder := fun before text =>
  (assignmentAt target before text).map fun cut => ("return ".toList ++ [cut.1], cut.2)

/-- What follows the spaces behind the sign of an assignment. -/
def assignedWays : Thread → Ways :=
  (Regex.group 1 (.set (.except '='))).ways .one

/-- The thread behind the character that is assigned, which stands behind the text `gap`. -/
def pastAssigned (thread : Thread) (gap : Text) (c : Char) (rest : Text) : Thread :=
  ((past thread (gap, c :: rest)).step c rest).close 1 (past thread (gap, c :: rest)).cursor

theorem first_assignedWays {thread : Thread} {c : Char} {rest : Text}
    (here : thread.cursor.rest = c :: rest) :
    (assignedWays thread).first =
      if c = '=' then none else some (pastAssigned thread [] c rest) := by
  have start := past_nil thread
  rw [here] at start
  have step : (Regex.set (.except '=')).ways (fun reached => .one (reached.close 1 thread.cursor))
      thread = if (CharSet.except '=').has c then .one ((thread.step c rest).close 1 thread.cursor)
      else .none := ways_set_cons here
  rw [assignedWays, Regex.ways, step, pastAssigned, start]
  by_cases sign : c = '='
  · rw [if_neg (mt CharSet.has_except.mp (not_not_intro sign)), if_pos sign, Ways.first_none]
  · rw [if_pos (CharSet.has_except.mpr sign), if_neg sign, Ways.first_one]

/-- Of the spaces behind the sign as many are taken as leave a character to assign. -/
theorem first_spaces_assignedWays (thread : Thread) :
    (assignedEnd thread.cursor.rest = none → (spaces.ways assignedWays thread).first = none) ∧
      ∀ c rest, assignedEnd thread.cursor.rest = some (c, rest) →
        ∃ gap, (∀ d ∈ gap, d = ' ') ∧ thread.cursor.rest = gap ++ c :: rest ∧
          (spaces.ways assignedWays thread).first = some (pastAssigned thread gap c rest) := by
  have run : ∀ (text : Text) (thread : Thread), thread.cursor.rest = text →
      (assignedEnd text = none →
        (spanWays true (.single ' ') assignedWays text thread).first = none) ∧
      ∀ c rest, assignedEnd text = some (c, rest) →
        ∃ gap, (∀ d ∈ gap, d = ' ') ∧ text = gap ++ c :: rest ∧
          (spanWays true (.single ' ') assignedWays text thread).first =
            some (pastAssigned thread gap c rest) := by
    intro text
    induction text with
    | nil =>
        intro thread here
        refine ⟨fun _ => ?_, fun c rest ends => absurd ends.symm (Option.some_ne_none _)⟩
        have nothing : (Regex.set (.except '=')).ways
            (fun reached => .one (reached.close 1 thread.cursor)) thread = .none :=
          ways_set_nil here
        rw [spanWays, Ways.first_order_greedy, assignedWays, Regex.ways, nothing]
        rfl
    | cons d text ih =>
        intro thread here
        obtain ⟨fails, succeeds⟩ := ih (thread.step d text) rfl
        rw [spanWays, Ways.first_order_greedy, first_assignedWays here, assignedEnd]
        by_cases space : d = ' '
        · subst space
          rw [if_pos rfl, if_pos (CharSet.has_single.mpr rfl), if_neg (by decide)]
          cases later : assignedEnd text with
          | none =>
              refine ⟨fun nothing => absurd nothing (Option.some_ne_none _), fun c rest ends => ?_⟩
              obtain ⟨rfl, rfl⟩ := Prod.mk.inj (Option.some.inj ends)
              exact ⟨[], by simp, rfl, by rw [fails later, Option.none_or]⟩
          | some cut =>
              refine ⟨fun nothing => absurd nothing (Option.some_ne_none _), fun c rest ends => ?_⟩
              obtain rfl := Option.some.inj ends
              obtain ⟨gap, spaced, whole, first⟩ := succeeds c rest later
              refine ⟨' ' :: gap, by simpa using spaced, congrArg (' ' :: ·) whole, ?_⟩
              rw [first, Option.some_or, pastAssigned, pastAssigned, past_step]
              rfl
        · rw [if_neg space, if_neg (mt CharSet.has_single.mp space), Ways.first_none,
            Option.none_or]
          by_cases sign : d = '='
          · rw [if_pos sign, if_pos sign]
            exact ⟨fun _ => rfl, fun c rest ends => absurd ends.symm (Option.some_ne_none _)⟩
          · rw [if_neg sign, if_neg sign]
            refine ⟨fun nothing => absurd nothing (Option.some_ne_none _), fun c rest ends => ?_⟩
            obtain ⟨rfl, rfl⟩ := Prod.mk.inj (Option.some.inj ends)
            exact ⟨[], by simp, rfl, rfl⟩
  exact run thread.cursor.rest thread rfl

section Assignments

variable {target rest : Text} {c : Char} {cursor : Cursor}

theorem first_assignment (target : Text) (cursor : Cursor) :
    (assignment target).first cursor =
      (behindSign target '=' cursor.before cursor.rest).bind fun behind =>
        (spaces.ways assignedWays (pastSign id target '=' cursor behind)).first := by
  have solid : '=' ≠ ' ' := by decide
  have keeps : ∀ thread : Thread, (id thread).cursor = thread.cursor := fun _ => rfl
  rw [← first_sign target solid keeps (spaces.ways assignedWays) cursor, Regex.first, assignment,
    ways_concat_cons, ways_concat_append]
  rfl

theorem first_assignment_of_none (nothing : assignmentAt target cursor.before cursor.rest = none) :
    (assignment target).first cursor = none := by
  rw [first_assignment, Option.bind_eq_none_iff]
  intro behind sign
  rw [assignmentAt, Option.bind_eq_none_iff] at nothing
  exact (first_spaces_assignedWays _).1 (nothing behind sign)

/-- **The first match of an assignment**, where there is one, and what its group has matched. -/
theorem first_assignment_of_some
    (found : assignmentAt target cursor.before cursor.rest = some (c, rest)) :
    ∃ before behind captures, (∀ d ∈ before ++ behind, d = ' ') ∧
      cursor.rest = (target ++ before ++ '=' :: behind ++ [c]) ++ rest ∧
      (assignment target).first cursor =
        some ⟨cursor.advance (target ++ before ++ '=' :: behind ++ [c]) rest, captures⟩ ∧
      ∀ taken, Match.group? ⟨taken, captures⟩ 1 = some [c] := by
  obtain ⟨later, sign, ends⟩ := Option.bind_eq_some_iff.mp found
  have keeps : ∀ thread : Thread, (id thread).cursor = thread.cursor := fun _ => rfl
  obtain ⟨before, spaced, here, place⟩ := exists_pastSign keeps sign
  obtain ⟨behind, spacedLater, whole, first⟩ :=
    (first_spaces_assignedWays (pastSign id target '=' cursor later)).2 c rest ends
  have wholeLater : later = behind ++ c :: rest := whole
  -- The place where the assigned character stands.
  let start := (past (pastSign id target '=' cursor later) (behind, c :: rest)).cursor
  have startEq : start = cursor.advance (target ++ before ++ '=' :: behind) (c :: rest) := by
    simp only [start, past, place, Cursor.advance_advance, List.append_assoc,
      List.singleton_append]
  refine ⟨before, behind, [⟨1, start, start.step c rest⟩], ?_, ?_, ?_, ?_⟩
  · intro d mem
    exact (List.mem_append.mp mem).elim (spaced d) (spacedLater d)
  · rw [here, wholeLater]
    simp
  · have matched : (assignment target).first cursor =
        some ⟨start.step c rest, [⟨1, start, start.step c rest⟩]⟩ := by
      rw [first_assignment, sign, Option.bind_some, first]
      rfl
    rw [matched]
    simp only [startEq, Cursor.step_eq_advance, Cursor.advance_advance]
  · intro taken
    have stands : start.rest = [c] ++ rest := rfl
    exact congrArg some (Cursor.Reaches.textTo_eq start stands)

theorem finds_assignment (target : Text) :
    Finds (assignment target) (Template.expand [] "return $\x7b1\x7d".toList)
      (returned target) where
  none nothing := first_assignment_of_none (Option.map_eq_none_iff.mp nothing)
  some := by
    intro cursor result behind found
    obtain ⟨⟨c, rest⟩, stands, eq⟩ := Option.map_eq_some_iff.mp found
    obtain ⟨rfl, rfl⟩ := Prod.mk.inj eq
    obtain ⟨before, after, captures, -, here, first, group⟩ := first_assignment_of_some stands
    refine ⟨target ++ before ++ '=' :: after ++ [c], captures,
      List.append_ne_nil_of_right_ne_nil _ (List.cons_ne_nil _ _), here, first, ?_⟩
    rw [expand_return, group, Option.getD_some]

end Assignments

end CrossShade.Rule
