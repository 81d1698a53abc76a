import Mathlib.Logic.Function.Conjugate
import CrossShade.Proofs.Assignments
import CrossShade.Proofs.Indentation

/-!
The standard rules may be applied in any order. Each of them is an edit, and two of the edits may
change places if neither hides what the other finds or brings something in for it. A line end stands
behind the end of a statement, where every edit begins anew. A return takes the place of a target,
its sign and the spaces, which no product reaches into but with its operand; and an operand is
edited alike whether the end of the statement follows it or the comma of a call.

* `edit_broken_comm`: lines may be ended before or after any edit of names.
* `exists_stem`: what an operand is edited to does not depend on what ends it.
* `interchange`: assignments and products may be edited in either order.
* `applyAll_any_order`: all orders of the standard rules come to the same.
-/

namespace CrossShade.Text

/-! ### Names in an edited text -/

section Words

variable {find : Finder} {before : Option Char} {c d : Char} {name gap text rest result : Text}

/-- Where no word begins nothing is replaced, so a character there is one of the text. -/
theorem Finder.KeepsStops.edit_eq_cons_iff (keeps : find.KeepsStops)
    (goesOn : before.any isWordChar = true ∨ isWordChar d = false) :
    edit find before text = d :: result ↔ ∃ rest, text = d :: rest ∧
      edit find (some d) rest = result := by
  cases text with
  | nil => simp
  | cons c text =>
      cases found : find before (c :: text) with
      | none =>
          rw [edit_of_none found]
          constructor
          · intro whole
            obtain ⟨rfl, eq⟩ := List.cons.inj whole
            exact ⟨text, rfl, eq⟩
          · rintro ⟨rest, whole, eq⟩
            obtain ⟨rfl, rfl⟩ := List.cons.inj whole
            rw [eq]
      | some replaced =>
          obtain ⟨value, later⟩ := replaced
          obtain ⟨-, inner, last, -, rfl, starts, -⟩ := keeps.found found
          rcases goesOn with joined | wordless
          · rw [keeps.inside joined] at found
            cases found
          · constructor
            · intro whole
              rw [keeps.edit_of_some found] at whole
              cases inner with
              | nil => cases starts
              | cons e inner =>
                  obtain ⟨rfl, -⟩ := List.cons.inj whole
                  exact absurd starts (by simp [wordless])
            · rintro ⟨rest, whole, -⟩
              obtain ⟨rfl, -⟩ := List.cons.inj whole
              rw [keeps.byName.starts wordless] at found
              cases found

theorem Finder.KeepsStops.edit_eq_gap_append_iff (keeps : find.KeepsStops) (nonempty : gap ≠ [])
    (wordless : ∀ d ∈ gap, isWordChar d = false) :
    edit find before text = gap ++ result ↔ ∃ rest, text = gap ++ rest ∧
      edit find none rest = result := by
  induction gap generalizing before text with
  | nil => exact absurd rfl nonempty
  | cons d gap ih =>
      obtain ⟨here, later⟩ := List.forall_mem_cons.mp wordless
      rw [List.cons_append, keeps.edit_eq_cons_iff (.inr here)]
      cases gap with
      | nil =>
          simp [keeps.byName.edit_behind here]
      | cons e gap =>
          simp only [ih (List.cons_ne_nil e gap) later]
          constructor
          · rintro ⟨_, rfl, rest, rfl, eq⟩
            exact ⟨rest, rfl, eq⟩
          · rintro ⟨rest, rfl, eq⟩
            exact ⟨_, rfl, rest, rfl, eq⟩

/-- **Behind its first character a name stays**, and what follows it up to the next one. -/
theorem Finder.KeepsStops.edit_eq_name_append_iff (keeps : find.KeepsStops)
    (word : ∀ d ∈ c :: name, isWordChar d = true) (nonempty : gap ≠ [])
    (wordless : ∀ d ∈ gap, isWordChar d = false) :
    edit find (some c) text = name ++ (gap ++ result) ↔ ∃ rest, text = name ++ (gap ++ rest) ∧
      edit find none rest = result := by
  induction name generalizing c text with
  | nil => exact keeps.edit_eq_gap_append_iff nonempty wordless
  | cons d name ih =>
      obtain ⟨joined, later⟩ := List.forall_mem_cons.mp word
      have goesOn : (some c).any isWordChar = true ∨ isWordChar d = false := .inl joined
      rw [List.cons_append, keeps.edit_eq_cons_iff goesOn]
      simp only [ih later]
      constructor
      · rintro ⟨_, rfl, rest, rfl, eq⟩
        exact ⟨rest, rfl, eq⟩
      · rintro ⟨rest, rfl, eq⟩
        exact ⟨_, rfl, rest, rfl, eq⟩

end Words

end CrossShade.Text

namespace CrossShade.Rule

open CrossShade.Text

section Signs

variable {find other : Finder} {name word gap : Text} {sign : Char}
  {cut : Text → Option (Text × Text)} {before : Option Char}

theorem wordless_append_sign (spaced : ∀ c ∈ gap, c = ' ') (wordless : isWordChar sign = false) :
    ∀ c ∈ gap ++ [sign], isWordChar c = false :=
  List.forall_mem_append.mpr ⟨wordless_of_spaces spaced, by simpa using wordless⟩

/-- **Behind its first character a text may be edited** without a change to the name and the sign
that it starts with. -/
theorem IsName.behindSign_cons_edit (isName : IsName name) (keeps : other.KeepsStops)
    (solid : sign ≠ ' ') (wordless : isWordChar sign = false) (c : Char) (rest : Text) :
    behindSign name sign before (c :: edit other (some c) rest) =
      (behindSign name sign before (c :: rest)).map (edit other none) := by
  obtain ⟨d, more, rfl⟩ := List.exists_cons_of_ne_nil isName.nonempty
  have signed {gap : Text} (spaced : ∀ e ∈ gap, e = ' ') := wordless_append_sign spaced wordless
  have split (gap behind : Text) : d :: more ++ gap ++ sign :: behind =
      d :: (more ++ (gap ++ [sign] ++ behind)) := by simp
  have edge : isWordEdge before (c :: edit other (some c) rest) = isWordEdge before (c :: rest) :=
    rfl
  refine Option.ext fun behind => ?_
  simp only [Option.map_eq_some_iff, behindSign_eq_some_iff solid, edge, split]
  constructor
  · rintro ⟨starts, gap, spaced, whole⟩
    obtain ⟨rfl, behindFirst⟩ := List.cons.inj whole
    obtain ⟨later, rfl, rfl⟩ :=
      (keeps.edit_eq_name_append_iff isName.word (by simp) (signed spaced)).mp behindFirst
    exact ⟨later, ⟨starts, gap, spaced, rfl⟩, rfl⟩
  · rintro ⟨later, ⟨starts, gap, spaced, whole⟩, rfl⟩
    obtain ⟨rfl, rfl⟩ := List.cons.inj whole
    have stays := (keeps.edit_eq_name_append_iff isName.word (by simp) (signed spaced)).mpr
      ⟨later, rfl, rfl⟩
    exact ⟨starts, gap, spaced, congrArg (c :: ·) stays⟩

/-- An edit behind the first character hides no name with a sign and brings none in, if it does not
change whether something is found behind the sign. -/
theorem Signed.cons_edit_eq_none_iff (signed : Signed find name sign cut) (keeps : other.KeepsStops)
    (cuts : ∀ behind, cut (edit other none behind) = none ↔ cut behind = none) {c : Char}
    {rest : Text} :
    find before (c :: edit other (some c) rest) = none ↔ find before (c :: rest) = none := by
  rw [signed.eq, signed.eq, signed.isName.behindSign_cons_edit keeps signed.solid signed.wordless]
  cases behindSign name sign before (c :: rest) with
  | none => rfl
  | some behind => exact cuts behind

theorem IsName.takeWhile_append (isName : IsName name) {d : Char} (wordless : isWordChar d = false)
    (rest : Text) : (name ++ d :: rest).takeWhile isWordChar = name := by
  rw [List.takeWhile_append_of_pos isName.word, List.takeWhile_cons_of_neg (by simp [wordless]),
    List.append_nil]

/-- Where another name stands nothing is found. -/
theorem Signed.eq_none_of_ne (signed : Signed find name sign cut) (isName : IsName word)
    (differ : word ≠ name) {d : Char} (wordless : isWordChar d = false) (rest : Text) :
    find before (word ++ d :: rest) = none := by
  rw [signed.eq, Option.bind_eq_none_iff]
  intro behind found
  obtain ⟨-, later, whole, stop⟩ := exists_of_behindSign found
  cases later with
  | nil => cases stop
  | cons e later =>
      have wordlessGap : isWordChar e = false := by
        by_cases space : e = ' '
        · rw [space]
          decide
        · rw [dropSpaces_cons space] at stop
          rw [(List.cons.inj stop).1]
          exact signed.wordless
      have same := congrArg (List.takeWhile isWordChar) whole
      rw [isName.takeWhile_append wordless, signed.isName.takeWhile_append wordlessGap] at same
      exact absurd same differ

/-- A name where nothing is found stays, with what follows it up to the next one. -/
theorem IsName.edit_append (isName : IsName word) (keeps : find.KeepsStops) (nonempty : gap ≠ [])
    (wordless : ∀ d ∈ gap, isWordChar d = false) {text : Text}
    (nothing : find before (word ++ (gap ++ text)) = none) :
    edit find before (word ++ (gap ++ text)) = word ++ (gap ++ edit find none text) := by
  obtain ⟨c, name, rfl⟩ := List.exists_cons_of_ne_nil isName.nonempty
  rw [List.cons_append] at nothing ⊢
  rw [edit_of_none nothing]
  exact congrArg (c :: ·)
    ((keeps.edit_eq_name_append_iff isName.word nonempty wordless).mpr ⟨text, rfl, rfl⟩)

/-- Another name stays, with what follows it up to the next one. -/
theorem Signed.edit_append_of_ne (signed : Signed find name sign cut) (keeps : find.KeepsStops)
    (isName : IsName word) (differ : word ≠ name) (nonempty : gap ≠ [])
    (wordless : ∀ d ∈ gap, isWordChar d = false) (text : Text) :
    edit find before (word ++ (gap ++ text)) = word ++ (gap ++ edit find none text) := by
  refine isName.edit_append keeps nonempty wordless ?_
  obtain ⟨d, more, rfl⟩ := List.exists_cons_of_ne_nil nonempty
  exact signed.eq_none_of_ne isName differ (wordless d List.mem_cons_self) _

end Signs

/-! ### Line ends -/

section Lines

variable {find : Finder} {name : Text} {sign : Char} {cut : Text → Option (Text × Text)}
  {indent : Text}

/-- **Lines may be ended first or last**, statement by statement. -/
theorem edit_broken_comm (signed : Signed find name sign cut) (keeps : find.KeepsStops)
    (blank : AllBlank indent) (text : Text) :
    edit (broken indent) none (edit find none text) =
      edit find none (edit (broken indent) none text) := by
  induction text using (measure List.length).wf.induction with
  | h text ih =>
      by_cases ended : ';' ∈ text
      · obtain ⟨front, back, rfl, unended⟩ := List.eq_append_cons_of_mem ended
        obtain ⟨statement, alone, whole⟩ := signed.edit_append_stop keeps front back
        have unendedStatement := keeps.unended_of_edit_append_stop alone unended
        have shorter : (dropSpaces back).length < (front ++ ';' :: back).length := by
          have := (List.dropWhile_suffix (· == ' ') (l := back)).length_le
          change (dropSpaces back).length ≤ back.length at this
          rw [List.length_append, List.length_cons]
          omega
        rw [whole, edit_broken_append, edit_broken_append, keeps.dropSpaces_edit, ih _ shorter,
          edit_broken_of_unended unended, edit_broken_of_unended unendedStatement,
          signed.edit_append_line keeps.proper blank, alone]
        simp
      · have unended : ';' ∉ edit find none text := by rwa [keeps.mem_edit_iff]
        rw [edit_broken_of_unended unended, edit_broken_of_unended ended]

end Lines

/-! ### What follows a sign -/

section Cuts

variable {find : Finder} {behind rest later : Text} {c d : Char}

theorem ne_of_word (wordless : isWordChar d = false) (word : isWordChar c = true) : c ≠ d := by
  rintro rfl
  rw [wordless] at word
  cases word

theorem operandEnd_eq_none_iff {text : Text} :
    operandEnd text = none ↔ (text.filter isStop).head? ≠ some ';' := by
  induction text with
  | nil => simp [operandEnd]
  | cons c text ih =>
      rw [operandEnd, List.filter_cons]
      split
      · next stop =>
          subst stop
          simp [isStop]
      · next other =>
          split
          · next lineEnd =>
              subst lineEnd
              simp [isStop]
          · next oneLine =>
              have plain : isStop c = false := by simp [isStop, other, oneLine]
              rw [Option.map_eq_none_iff, ih, if_neg (by simp [plain])]

theorem filter_dropSpaces (text : Text) : (dropSpaces text).filter isStop = text.filter isStop := by
  have plain : ∀ c ∈ leadingSpaces text, isStop c = false :=
    isStop_eq_false_of_spaces fun c => eq_space_of_mem_leadingSpaces
  conv_rhs =>
    rw [← leadingSpaces_append_dropSpaces text, List.filter_append,
      filter_isStop_eq_nil_iff.mpr plain]
  rfl

/-- An operand ends behind an edit just if it ended before. -/
theorem callCut_edit_eq_none_iff (keeps : find.KeepsStops) (matrix behind : Text) :
    callCut matrix (edit find none behind) = none ↔ callCut matrix behind = none := by
  rw [callCut, callCut, Option.map_eq_none_iff, Option.map_eq_none_iff, operandEnd_eq_none_iff,
    operandEnd_eq_none_iff, filter_dropSpaces, filter_dropSpaces, keeps.filter_edit]

/-- Something is assigned behind an edit just if something was before. -/
theorem returnCut_edit_eq_none_iff (keeps : find.KeepsStops) (behind : Text) :
    returnCut (edit find none behind) = none ↔ returnCut behind = none := by
  rw [returnCut, returnCut, Option.map_eq_none_iff, Option.map_eq_none_iff, assignedEnd_eq_none_iff,
    assignedEnd_eq_none_iff]
  rcases keeps.head?_edit none behind with same | ⟨c, d, first, firstEdited, word, wordEdited⟩
  · rw [same]
  · have sign : isWordChar '=' = false := by decide
    simp [first, firstEdited, ne_of_word sign word, ne_of_word sign wordEdited]

/-- What an assignment keeps, it keeps in an edited text as well: whatever the edit made of it. -/
theorem Keeps.edit (keeps : find.KeepsStops) (kept : Keeps behind c rest)
    (edited : edit find none (c :: rest) = d :: later) : Keeps (edit find none behind) d later := by
  obtain ⟨gap, spaced, rfl, stands⟩ := kept
  have apart := keeps.byName.edit_append (wordless_of_spaces spaced) Option.any_none (c :: rest)
  rw [edited] at apart
  refine ⟨gap, spaced, apart, ?_⟩
  rcases stands with ⟨solid, other⟩ | ⟨rfl, last⟩
  · have starts := keeps.head?_edit none (c :: rest)
    rw [edited] at starts
    rcases starts with same | ⟨-, e, -, first, -, word⟩
    · obtain rfl : d = c := Option.some.inj same
      exact .inl ⟨solid, other⟩
    · obtain rfl : d = e := Option.some.inj first
      exact .inl ⟨ne_of_word (by decide) word, ne_of_word (by decide) word⟩
  · -- The last of the spaces is kept because another sign follows it, which stays.
    rw [edit_of_none (keeps.byName.starts (by decide))] at edited
    obtain ⟨rfl, rfl⟩ := List.cons.inj edited
    refine .inr ⟨rfl, fun e first => ?_⟩
    rcases keeps.head?_edit (some ' ') rest with same | ⟨f, -, second, -, word, -⟩
    · exact last e (same ▸ first)
    · exact absurd (last f second) (ne_of_word (by decide) word)

end Cuts

/-! ### Operands -/

section Operands

variable {target : Text} {before : Option Char} {d : Char}

/-- The character belongs to no name and is neither a space nor the sign of an assignment. -/
structure IsEnd (d : Char) : Prop where
  wordless : isWordChar d = false
  solid : d ≠ ' '
  other : d ≠ '='

theorem isEnd_stop : IsEnd ';' := ⟨by decide, by decide, by decide⟩

theorem isEnd_comma : IsEnd ',' := ⟨by decide, by decide, by decide⟩

theorem isEnd_open : IsEnd '(' := ⟨by decide, by decide, by decide⟩

theorem assignedEnd_append_of_spaces {gap : Text} (spaced : ∀ c ∈ gap, c = ' ') (isEnd : IsEnd d)
    (back : Text) : assignedEnd (gap ++ d :: back) = some (d, back) :=
  assignedEnd_eq_some_iff.mpr ⟨gap, spaced, rfl, .inl ⟨isEnd.solid, isEnd.other⟩⟩

theorem returned_append_cons (isName : IsName target) (isEnd : IsEnd d) (front back : Text) :
    returned target before (front ++ d :: back) =
      (behindSign target '=' before front).bind fun behind => returnCut (behind ++ d :: back) := by
  rw [(signed_returned isName).eq,
    isName.behindSign_append_cons isEnd.wordless isEnd.solid isEnd.other, Option.bind_map]
  rfl

/-- In front of an end nothing is found whatever follows, or the end is what is assigned, or the
assignment is found as it is where nothing follows. -/
theorem returned_in_front_of_end (isName : IsName target) (before : Option Char) (front : Text) :
    (∀ d back, IsEnd d → returned target before (front ++ d :: back) = none) ∨
      (∀ d back, IsEnd d → returned target before (front ++ d :: back) =
        some ("return ".toList ++ [d], back)) ∨
      ∃ c rest, returned target before front = some ("return ".toList ++ [c], rest) ∧
        ∀ d back, IsEnd d → returned target before (front ++ d :: back) =
          some ("return ".toList ++ [c], rest ++ d :: back) := by
  cases sign : behindSign target '=' before front with
  | none =>
      refine .inl fun d back isEnd => ?_
      rw [returned_append_cons isName isEnd, sign, Option.bind_none]
  | some behind =>
      have cut : ∀ d back, IsEnd d →
          returned target before (front ++ d :: back) = returnCut (behind ++ d :: back) := by
        intro d back isEnd
        rw [returned_append_cons isName isEnd, sign, Option.bind_some]
      by_cases spaced : ∀ c ∈ behind, c = ' '
      · refine .inr (.inl fun d back isEnd => ?_)
        rw [cut d back isEnd, returnCut, assignedEnd_append_of_spaces spaced isEnd]
        rfl
      · have solid : ∃ c ∈ behind, c ≠ ' ' := by simpa using spaced
        cases ends : assignedEnd behind with
        | none =>
            refine .inl fun d back isEnd => ?_
            rw [cut d back isEnd, returnCut, assignedEnd_append solid, ends]
            rfl
        | some assigned =>
            obtain ⟨c, rest⟩ := assigned
            refine .inr (.inr ⟨c, rest, ?_, fun d back isEnd => ?_⟩)
            · rw [(signed_returned isName).eq, sign, Option.bind_some, returnCut, ends]
              rfl
            · rw [cut d back isEnd, returnCut, assignedEnd_append solid, ends]
              rfl

/-- **What stands in front of an end** is edited alike, whichever end it is and whatever follows. -/
theorem exists_stem (isName : IsName target) (before : Option Char) (front : Text) :
    ∃ stem, ∀ d back, IsEnd d → edit (returned target) before (front ++ d :: back) =
      stem ++ d :: edit (returned target) none back := by
  have keeps := keepsStops_returned isName
  induction front using (measure List.length).wf.induction generalizing before with
  | h front ih =>
      cases front with
      | nil =>
          refine ⟨[], fun d back isEnd => ?_⟩
          rw [List.nil_append, edit_of_none (keeps.byName.starts isEnd.wordless),
            keeps.byName.edit_behind isEnd.wordless]
          rfl
      | cons c front =>
          rcases returned_in_front_of_end isName before (c :: front) with
            nothing | assigned | ⟨e, rest, alone, assigned⟩
          · obtain ⟨stem, eq⟩ := ih front (Nat.lt_succ_self _) (some c)
            refine ⟨c :: stem, fun d back isEnd => ?_⟩
            exact (edit_of_none (nothing d back isEnd)).trans (congrArg (c :: ·) (eq d back isEnd))
          · refine ⟨"return ".toList, fun d back isEnd => ?_⟩
            rw [keeps.edit_of_some (assigned d back isEnd), keeps.byName.edit_behind isEnd.wordless]
          · obtain ⟨stem, eq⟩ := ih rest (keeps.proper.length_lt alone) (some e)
            refine ⟨"return ".toList ++ e :: stem, fun d back isEnd => ?_⟩
            rw [keeps.edit_of_some (assigned d back isEnd), eq d back isEnd, List.append_assoc]
            rfl

end Operands

/-! ### Assignments and products -/

section Order

variable {target matrix : Text} {before : Option Char}

theorem edit_of_call (isMatrix : IsName matrix) {text operand rest : Text}
    (found : multiplied matrix before text = some (call operand matrix, rest)) :
    edit (multiplied matrix) before text =
      call operand matrix ++ edit (multiplied matrix) none rest := by
  have keeps := keepsStops_multiplied isMatrix
  obtain ⟨-, inner, -, value, -, -⟩ := exists_of_multiplied isMatrix found
  rw [value] at found ⊢
  rw [keeps.edit_of_some found, keeps.byName.edit_behind (by decide), List.append_assoc]
  rfl

/-- A call from name to name: its own, those of the operand, and the matrix. -/
theorem call_append (operand matrix back : Text) :
    call operand matrix ++ back = "mul".toList ++ ("( ".toList ++
      (operand ++ ',' :: ([' '] ++ (matrix ++ (" );".toList ++ back))))) := by
  have whole : call operand matrix ++ back = "mul( ".toList ++
      (operand ++ (", ".toList ++ (matrix ++ " );".toList))) ++ back := rfl
  rw [whole]
  simp only [List.append_assoc]
  rfl

/-- No assignment begins with the name that a call begins with. -/
theorem edit_returned_call (isTarget : IsName target) (back : Text) :
    edit (returned target) before ("mul".toList ++ ("( ".toList ++ back)) =
      "mul".toList ++ ("( ".toList ++ edit (returned target) none back) := by
  have isCall : IsName "mul".toList := ⟨by decide, by decide⟩
  refine isCall.edit_append (keepsStops_returned isTarget) (by decide) (by decide) ?_
  have signless : behindSign target '=' before "mul".toList = none := by
    rw [Option.eq_none_iff_forall_ne_some]
    intro behind found
    obtain ⟨-, gap, -, whole⟩ := (behindSign_eq_some_iff (by decide)).mp found
    have sign : '=' ∈ "mul".toList := by simp [whole]
    exact absurd sign (by decide)
  refine (returned_append_cons isTarget isEnd_open "mul".toList (' ' :: back)).trans ?_
  rw [signless, Option.bind_none]

/-- The text may be edited for assignments and for products in either order. -/
def Interchange (target matrix : Text) (before : Option Char) (text : Text) : Prop :=
  edit (multiplied matrix) before (edit (returned target) before text) =
    edit (returned target) before (edit (multiplied matrix) before text)

/-- A product is found behind an edit of its text as well, and then its operand is edited. -/
theorem multiplied_edited (isTarget : IsName target) (isMatrix : IsName matrix) {c : Char}
    {rest value later : Text} (found : multiplied matrix before (c :: rest) = some (value, later)) :
    ∃ operand stem, value = call operand matrix ∧
      multiplied matrix before (c :: edit (returned target) (some c) rest) =
        some (call stem matrix, edit (returned target) none later) ∧
      ∀ d back, IsEnd d → edit (returned target) none (operand ++ d :: back) =
        stem ++ d :: edit (returned target) none back := by
  have keeps := keepsStops_returned isTarget
  have signed := signed_multiplied isMatrix
  obtain ⟨edge, gap, after, operand, spaced, starts, whole, unended, oneLine, rfl⟩ :=
    multiplied_eq_some_iff.mp found
  obtain ⟨spacedGap, spacedAfter⟩ := List.forall_mem_append.mp spaced
  obtain ⟨stem, stands⟩ := exists_stem isTarget none operand
  refine ⟨operand, stem, rfl, ?_, stands⟩
  have sign := (behindSign_eq_some_iff signed.solid).mpr ⟨edge, gap, spacedGap, whole⟩
  -- The edit brings no stop into the operand, so that it ends where it ended.
  have plain : ∀ d ∈ stem, isStop d = false := by
    rw [← filter_isStop_eq_nil_iff, keeps.filter_of_edit_append_stop (stands ';' [] isEnd_stop),
      filter_isStop_eq_nil_iff]
    exact stopless_iff.mpr ⟨unended, oneLine⟩
  have inner : dropSpaces (after ++ (operand ++ ';' :: later)) = operand ++ ';' :: later :=
    (dropSpaces_eq_iff (head?_append_stop.mpr starts)).mpr ⟨after, spacedAfter, rfl⟩
  have ends : operandEnd (dropSpaces (edit (returned target) none
      (after ++ (operand ++ ';' :: later)))) =
        some (stem, edit (returned target) none later) := by
    rw [keeps.dropSpaces_edit, inner, stands ';' later isEnd_stop]
    exact operandEnd_eq_some_iff.mpr ⟨rfl, stopless_iff.mp plain⟩
  rw [signed.eq, isMatrix.behindSign_cons_edit keeps signed.solid signed.wordless, sign,
    Option.map_some, Option.bind_some, callCut, ends]
  rfl

variable (isTarget : IsName target) (isMatrix : IsName matrix) (differ : target ≠ matrix)

include isTarget isMatrix differ

/-- **A product's operand may be edited before or after the product.** -/
theorem edit_product {c : Char} {rest value later : Text}
    (found : multiplied matrix before (c :: rest) = some (value, later))
    (ih : Interchange target matrix none later) :
    ∃ back, edit (multiplied matrix) before (c :: rest) = "mul".toList ++ ("( ".toList ++ back) ∧
      edit (multiplied matrix) before (c :: edit (returned target) (some c) rest) =
        "mul".toList ++ ("( ".toList ++ edit (returned target) none back) := by
  have keeps := keepsStops_returned isTarget
  have signed := signed_returned isTarget
  obtain ⟨operand, stem, rfl, foundEdited, stands⟩ := multiplied_edited isTarget isMatrix found
  refine ⟨_, (edit_of_call isMatrix found).trans (call_append _ _ _), ?_⟩
  rw [edit_of_call isMatrix foundEdited, ih, call_append, stands ',' _ isEnd_comma,
    keeps.byName.edit_append (by decide) Option.any_none,
    signed.edit_append_of_ne keeps isMatrix differ.symm (by decide) (by decide)]

/-- Behind its first character a text may be edited before or after the products, if shorter texts
may. -/
theorem edit_behind_first {c : Char} {rest : Text}
    (ih : ∀ later : Text, later.length ≤ rest.length → ∀ before,
      Interchange target matrix before later) :
    ∃ d later, edit (multiplied matrix) before (c :: rest) = d :: later ∧
      edit (multiplied matrix) before (c :: edit (returned target) (some c) rest) =
        d :: edit (returned target) (some d) later := by
  have keeps := keepsStops_returned isTarget
  cases found : multiplied matrix before (c :: rest) with
  | none =>
      have stays := ((signed_multiplied isMatrix).cons_edit_eq_none_iff keeps
        (callCut_edit_eq_none_iff keeps matrix)).mpr found
      refine ⟨c, _, edit_of_none found, ?_⟩
      rw [edit_of_none stays, ih rest (Nat.le_refl _)]
  | some result =>
      obtain ⟨value, later⟩ := result
      have shorter : later.length ≤ rest.length :=
        Nat.le_of_lt_succ ((keepsStops_multiplied isMatrix).proper.length_lt found)
      obtain ⟨back, eq, eqEdited⟩ :=
        edit_product isTarget isMatrix differ found (ih later shorter none)
      refine ⟨'m', "ul".toList ++ ("( ".toList ++ back), eq, eqEdited.trans ?_⟩
      have word : ∀ d ∈ 'm' :: "ul".toList, isWordChar d = true := by decide
      exact congrArg ('m' :: ·) ((keeps.edit_eq_name_append_iff word (by decide) (by decide)).mpr
        ⟨back, rfl, rfl⟩).symm

/-- **An assignment may become a return before or after the products behind it.** -/
theorem interchange_of_assignment (noReturn : matrix ≠ "return".toList) {text value rest : Text}
    (found : returned target before text = some (value, rest))
    (ih : ∀ later : Text, later.length ≤ rest.length → ∀ before,
      Interchange target matrix before later) : Interchange target matrix before text := by
  have signed := signed_multiplied isMatrix
  have keeps := keepsStops_returned isTarget
  have keepsProducts := keepsStops_multiplied isMatrix
  have isReturn : IsName "return".toList := ⟨by decide, by decide⟩
  obtain ⟨edge, gap, behind, c, spaced, whole, kept, rfl⟩ := returned_eq_some_iff.mp found
  obtain ⟨d, later, eq, eqEdited⟩ :=
    @edit_behind_first target matrix none isTarget isMatrix differ c rest ih
  have wordless := wordless_append_sign spaced (by decide : isWordChar '=' = false)
  have split (behind : Text) :
      target ++ gap ++ '=' :: behind = target ++ (gap ++ ['='] ++ behind) := by simp
  have products : edit (multiplied matrix) before text =
      target ++ gap ++ '=' :: edit (multiplied matrix) none behind := by
    rw [whole, split, split,
      signed.edit_append_of_ne keepsProducts isTarget differ (by simp) wordless]
  have foundEdited : returned target before (edit (multiplied matrix) before text) =
      some ("return ".toList ++ [d], later) := by
    have keptEdited := kept.edit keepsProducts eq
    refine returned_eq_some_iff.mpr ⟨?_, gap, _, d, spaced, products, keptEdited, rfl⟩
    rw [products]
    rw [whole] at edge
    obtain ⟨e, more, rfl⟩ := List.exists_cons_of_ne_nil isTarget.nonempty
    exact edge
  rw [Interchange, keeps.edit_of_some found, keeps.edit_of_some foundEdited, ← eqEdited]
  have space : ∀ e ∈ [' '], isWordChar e = false := by decide
  exact signed.edit_append_of_ne keepsProducts isReturn noReturn.symm (by simp) space _

/-- **Assignments and products may be edited in either order.** -/
theorem interchange (noReturn : matrix ≠ "return".toList) (before : Option Char) (text : Text) :
    Interchange target matrix before text := by
  have keeps := keepsStops_returned isTarget
  have keepsProducts := keepsStops_multiplied isMatrix
  induction text using (measure List.length).wf.induction generalizing before with
  | h text ih =>
      cases text with
      | nil => rfl
      | cons c rest =>
          cases assigned : returned target before (c :: rest) with
          | some result =>
              obtain ⟨value, later⟩ := result
              have less := keeps.proper.length_lt assigned
              exact interchange_of_assignment isTarget isMatrix differ noReturn assigned
                fun last within => ih last (Nat.lt_of_le_of_lt within less)
          | none =>
              cases product : multiplied matrix before (c :: rest) with
              | some result =>
                  obtain ⟨value, later⟩ := result
                  have less := keepsProducts.proper.length_lt product
                  obtain ⟨back, eq, eqEdited⟩ :=
                    edit_product isTarget isMatrix differ product (ih later less none)
                  rw [Interchange, edit_of_none assigned, eqEdited, eq, edit_returned_call isTarget]
              | none =>
                  have stays := ((signed_multiplied isMatrix).cons_edit_eq_none_iff keeps
                    (callCut_edit_eq_none_iff keeps matrix)).mpr product
                  have staysToo := ((signed_returned isTarget).cons_edit_eq_none_iff keepsProducts
                    (returnCut_edit_eq_none_iff keepsProducts)).mpr assigned
                  rw [Interchange, edit_of_none assigned, edit_of_none product, edit_of_none stays,
                    edit_of_none staysToo, ih rest (Nat.lt_succ_self _)]

end Order

/-! ### All orders -/

section Rules

variable {target matrix indent : Text}

theorem commute_ofTarget_lineBreaks (isTarget : IsName target) (blank : AllBlank indent) :
    Function.Commute ((ofTarget target).apply indent) (lineBreaks.apply indent) := by
  intro text
  simp only [apply_ofTarget, apply_lineBreaks]
  exact (edit_broken_comm (signed_returned isTarget) (keepsStops_returned isTarget) blank text).symm

theorem commute_lineBreaks_ofMatrix (isMatrix : IsName matrix) (blank : AllBlank indent) :
    Function.Commute (lineBreaks.apply indent) ((ofMatrix matrix).apply indent) := by
  intro text
  simp only [apply_lineBreaks, apply_ofMatrix]
  exact edit_broken_comm (signed_multiplied isMatrix) (keepsStops_multiplied isMatrix) blank text

theorem commute_ofTarget_ofMatrix (isTarget : IsName target) (isMatrix : IsName matrix)
    (differ : target ≠ matrix) (noReturn : matrix ≠ "return".toList) :
    Function.Commute ((ofTarget target).apply indent) ((ofMatrix matrix).apply indent) := by
  intro text
  simp only [apply_ofTarget, apply_ofMatrix]
  exact (interchange isTarget isMatrix differ noReturn none text).symm

end Rules

/-- Rules that commute in pairs may be applied in any order. -/
theorem applyAll_perm {indent : Text} {rules others : List Rule} (same : rules.Perm others)
    (commute : others.Pairwise fun left right =>
      Function.Commute (left.apply indent) (right.apply indent)) (body : Text) :
    applyAll rules indent body = applyAll others indent body := by
  have symmetric : Std.Symm fun left right : Rule =>
      Function.Commute (left.apply indent) (right.apply indent) := ⟨fun _ _ swap => swap.symm⟩
  have each := commute.forall_of_forall fun rule _ => Function.Commute.refl (rule.apply indent)
  exact (same.symm.foldl_eq' (fun left mem right memRight text => each memRight mem text) body).symm

/-- **The standard rules may be applied in any order.** With an indentation of blanks, each order of
the three gives the same text for every body. -/
theorem applyAll_any_order {indent : Text} (blank : AllBlank indent) :
    ∃ returns breaks products, assignToReturn "gl_FragColor".toList = .ok returns ∧
      breakStatements = .ok breaks ∧ matrixMultiply "u_mvp".toList = .ok products ∧
      standard = [returns, breaks, products] ∧
      ∀ rules : List Rule, rules.Perm [returns, breaks, products] → ∀ body,
        applyAll rules indent body = applyAll standard indent body := by
  have returns : assignToReturn "gl_FragColor".toList = .ok (ofTarget "gl_FragColor".toList) :=
    (assignToReturn_eq _ _).trans (if_neg (by decide))
  have products : matrixMultiply "u_mvp".toList = .ok (ofMatrix "u_mvp".toList) :=
    (matrixMultiply_eq _ _).trans (if_neg (by decide))
  have three : standard =
      [ofTarget "gl_FragColor".toList, lineBreaks, ofMatrix "u_mvp".toList] := by
    rw [standard, returns, breakStatements_eq_ok, products]
    rfl
  refine ⟨_, _, _, returns, breakStatements_eq_ok, products, three, fun rules same body => ?_⟩
  rw [three]
  refine applyAll_perm same ?_ body
  have differ : "gl_FragColor".toList ≠ "u_mvp".toList := by decide
  have noReturn : "u_mvp".toList ≠ "return".toList := by decide
  simp only [List.pairwise_cons, List.mem_cons, List.not_mem_nil, or_false, forall_eq_or_imp,
    forall_eq, false_implies, implies_true, List.Pairwise.nil, and_true]
  exact ⟨⟨commute_ofTarget_lineBreaks isName_fragColor blank,
    commute_ofTarget_ofMatrix isName_fragColor isName_mvp differ noReturn⟩,
    commute_lineBreaks_ofMatrix isName_mvp blank⟩

/-- An assignment whose first character begins a product, with another assignment in the operand. -/
theorem applyAll_any_order_sample :
    let body := "gl_FragColor =u_mvp*gl_FragColor = c;  x".toList
    AllBlank ['\t'] ∧
      applyAll standard.reverse ['\t'] body = applyAll standard ['\t'] body ∧
      applyAll standard ['\t'] body = "return mul( return c, u_mvp );\n\tx".toList := by
  intro body
  have blank : AllBlank ['\t'] := by decide
  obtain ⟨returns, breaks, products, -, -, -, three, same⟩ := applyAll_any_order blank
  refine ⟨blank, same _ (three ▸ List.reverse_perm _) body, ?_⟩
  rw [applyAll_standard]
  decide +kernel

end CrossShade.Rule
