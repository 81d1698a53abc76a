import Mathlib.Data.List.Chain
import Mathlib.Data.List.Infix
import CrossShade.Comment
import CrossShade.Proofs.Blanks
import CrossShade.Proofs.Lexemes

/-!
Texts without marks. Where nothing in a text can begin a comment, a directive or a literal,
there is nothing to strip (`strip_of_unmarked`). Whether a text is unmarked depends on its
characters and on which of them are neighbours, so it is read off one pair of neighbours after
another (`unmarked_iff_isChain`).

A text that has none of the characters that marks begin with is passed over whatever follows it
(`strip_append`). Of a comment behind it a block comment leaves nothing and a line comment leaves
its line end (`strip_append_block`, `strip_line`).
-/

namespace CrossShade.Comment

/-- Nothing in the text can begin a comment, a directive or a literal. -/
structure Unmarked (text : Text) : Prop where
  noQuote : '"' ∉ text
  noHash : '#' ∉ text
  noLine : ¬ "//".toList <:+: text
  noBlock : ¬ "/*".toList <:+: text

instance (text : Text) : Decidable (Unmarked text) :=
  decidable_of_iff
    ('"' ∉ text ∧ '#' ∉ text ∧ ¬ "//".toList <:+: text ∧ ¬ "/*".toList <:+: text)
    ⟨fun h => ⟨h.1, h.2.1, h.2.2.1, h.2.2.2⟩, fun h => ⟨h.noQuote, h.noHash, h.noLine, h.noBlock⟩⟩

/-! ### Neighbours -/

/-- The second character makes no mark behind the first. -/
def Quiet (c d : Char) : Prop :=
  d ≠ '"' ∧ d ≠ '#' ∧ ¬(c = '/' ∧ (d = '/' ∨ d = '*'))

/-- A character that belongs to no mark. -/
def Neutral (c : Char) : Prop :=
  c ≠ '"' ∧ c ≠ '#' ∧ c ≠ '/' ∧ c ≠ '*'

instance (c : Char) : Decidable (Neutral c) :=
  inferInstanceAs (Decidable (c ≠ '"' ∧ c ≠ '#' ∧ c ≠ '/' ∧ c ≠ '*'))

section Neighbours

variable {c d : Char} {text front back : Text}

theorem Neutral.quiet (neutral : Neutral d) : Quiet c d :=
  ⟨neutral.1, neutral.2.1, fun pair => pair.2.elim neutral.2.2.1 neutral.2.2.2⟩

theorem quiet_of_mem (chain : List.IsChain Quiet (c :: text)) (mem : d ∈ text) :
    d ≠ '"' ∧ d ≠ '#' := by
  induction text generalizing c with
  | nil => cases mem
  | cons e text ih =>
      obtain ⟨quiet, chain⟩ := List.isChain_cons_cons.mp chain
      rcases List.mem_cons.mp mem with rfl | mem
      · exact ⟨quiet.1, quiet.2.1⟩
      · exact ih chain mem

theorem unmarked_iff_isChain : Unmarked text ↔ List.IsChain Quiet (' ' :: text) := by
  constructor
  · intro unmarked
    refine List.isChain_iff_forall_rel_of_append_cons_cons.mpr fun c d front back whole => ?_
    have mem : d ∈ text := by
      cases front with
      | nil =>
          obtain ⟨-, rfl⟩ := List.cons.inj whole
          exact List.mem_cons_self
      | cons e front =>
          obtain ⟨-, rfl⟩ := List.cons.inj whole
          simp
    refine ⟨fun eq => unmarked.noQuote (eq ▸ mem), fun eq => unmarked.noHash (eq ▸ mem), ?_⟩
    rintro ⟨rfl, second⟩
    cases front with
    | nil => cases (List.cons.inj whole).1
    | cons e front =>
        obtain ⟨-, rfl⟩ := List.cons.inj whole
        rcases second with rfl | rfl
        · exact unmarked.noLine ⟨front, back, by simp⟩
        · exact unmarked.noBlock ⟨front, back, by simp⟩
  · intro chain
    have noPair : ∀ d, d = '/' ∨ d = '*' → ¬ ['/', d] <:+: text := by
      rintro d second ⟨front, back, rfl⟩
      have whole : ' ' :: (front ++ ['/', d] ++ back) = (' ' :: front) ++ '/' :: d :: back := by
        simp
      have pair := List.isChain_iff_forall_rel_of_append_cons_cons.mp chain whole
      exact pair.2.2 ⟨rfl, second⟩
    exact ⟨fun mem => (quiet_of_mem chain mem).1 rfl, fun mem => (quiet_of_mem chain mem).2 rfl,
      noPair '/' (Or.inl rfl), noPair '*' (Or.inr rfl)⟩

/-- A text without marks stays one behind anything but a slash. -/
theorem isChain_behind (noSlash : d ≠ '/') (chain : List.IsChain Quiet (c :: text)) :
    List.IsChain Quiet (d :: text) :=
  chain.imp_head fun quiet => ⟨quiet.1, quiet.2.1, fun pair => noSlash pair.1⟩

theorem unmarked_iff_isChain_cons (noSlash : c ≠ '/') :
    Unmarked text ↔ List.IsChain Quiet (c :: text) := by
  rw [unmarked_iff_isChain]
  exact ⟨isChain_behind noSlash, isChain_behind (by decide)⟩

theorem Unmarked.of_infix {part : Text} (unmarked : Unmarked text) (isPart : part <:+: text) :
    Unmarked part where
  noQuote mem := unmarked.noQuote (isPart.subset mem)
  noHash mem := unmarked.noHash (isPart.subset mem)
  noLine found := unmarked.noLine (found.trans isPart)
  noBlock found := unmarked.noBlock (found.trans isPart)

theorem unmarked_nil : Unmarked [] :=
  unmarked_iff_isChain.mpr (.singleton _)

theorem unmarked_cons (neutral : Neutral c) : Unmarked (c :: text) ↔ Unmarked text := by
  rw [unmarked_iff_isChain, List.isChain_cons_cons, ← unmarked_iff_isChain_cons neutral.2.2.1]
  exact and_iff_right neutral.quiet

theorem unmarked_append (neutral : ∀ c ∈ front, Neutral c) :
    Unmarked (front ++ back) ↔ Unmarked back := by
  induction front with
  | nil => rfl
  | cons c front ih =>
      rw [List.cons_append, unmarked_cons (neutral c List.mem_cons_self)]
      exact ih fun d mem => neutral d (List.mem_cons_of_mem _ mem)

theorem Unmarked.of_neutral (neutral : ∀ c ∈ text, Neutral c) : Unmarked text := by
  have whole : Unmarked (text ++ []) ↔ Unmarked [] := unmarked_append neutral
  rw [List.append_nil] at whole
  exact whole.mpr unmarked_nil

/-- A character that belongs to no mark keeps the texts at its sides apart. -/
theorem unmarked_append_cons (neutral : Neutral c) :
    Unmarked (front ++ c :: back) ↔ Unmarked front ∧ Unmarked back := by
  have before : Unmarked front ↔ List.IsChain Quiet (' ' :: front) := unmarked_iff_isChain
  have behind : Unmarked back ↔ List.IsChain Quiet (c :: back) :=
    unmarked_iff_isChain_cons neutral.2.2.1
  rw [unmarked_iff_isChain, before, behind, List.isChain_cons_split]
  refine and_congr_left fun _ => ?_
  rw [← List.cons_append, List.isChain_append]
  constructor
  · exact fun chain => chain.1
  · refine fun chain => ⟨chain, .singleton _, fun e _ d first => ?_⟩
    cases first
    exact neutral.quiet

end Neighbours

/-! ### Nothing to strip -/

/-- What the lexemes that the scan stops at begin with. -/
def marks : List Text :=
  ["/*".toList, "//".toList, "#".toList, "\"".toList, "@\"".toList]

/-- Where no mark stands no lexeme begins. -/
theorem lexemeAt_of_no_mark {text : Text} (unmarked : ∀ mark ∈ marks, ¬ mark <+: text) :
    lexemeAt text = none := by
  unfold lexemeAt
  split
  · next rest => exact absurd ⟨rest, rfl⟩ (unmarked "/*".toList (by simp [marks]))
  · next rest => exact absurd ⟨rest, rfl⟩ (unmarked "//".toList (by simp [marks]))
  · next rest => exact absurd ⟨rest, rfl⟩ (unmarked "#".toList (by simp [marks]))
  · next rest => exact absurd ⟨rest, rfl⟩ (unmarked "\"".toList (by simp [marks]))
  · next rest => exact absurd ⟨rest, rfl⟩ (unmarked "@\"".toList (by simp [marks]))
  · rfl

theorem not_isChain_of_mark {mark text : Text} {c : Char} (mem : mark ∈ marks)
    (front : mark <+: text) : ¬ List.IsChain Quiet (c :: text) := by
  obtain ⟨rest, rfl⟩ := front
  have all : ∀ mark ∈ marks, ¬ List.IsChain Quiet (c :: (mark ++ rest)) := by
    simp [marks, Quiet]
  exact all mark mem

/-- **Nothing is stripped** from a text without marks. -/
theorem strip_of_unmarked {text : Text} (unmarked : Unmarked text) : strip text = text := by
  have run : ∀ c, List.IsChain Quiet (c :: text) → strip text = text := by
    clear unmarked
    induction text with
    | nil => exact fun _ _ => strip_nil
    | cons d rest ih =>
        intro c chain
        have none : lexemeAt (d :: rest) = none :=
          lexemeAt_of_no_mark fun mark listed front => not_isChain_of_mark listed front chain
        rw [strip_of_none none, ih d (List.isChain_cons_cons.mp chain).2]
  exact run ' ' (unmarked_iff_isChain.mp unmarked)

/-! ### Texts that begin no mark -/

/-- No comment, directive or literal can begin in the text, whatever follows it. -/
structure Commentless (text : Text) : Prop where
  noQuote : '"' ∉ text
  noHash : '#' ∉ text
  noSlash : '/' ∉ text

instance (text : Text) : Decidable (Commentless text) :=
  decidable_of_iff ('"' ∉ text ∧ '#' ∉ text ∧ '/' ∉ text)
    ⟨fun h => ⟨h.1, h.2.1, h.2.2⟩, fun h => ⟨h.noQuote, h.noHash, h.noSlash⟩⟩

section Commentless

variable {c : Char} {front back text : Text}

theorem Commentless.of_subset (plain : Commentless text) {part : Text}
    (isPart : ∀ c ∈ part, c ∈ text) : Commentless part where
  noQuote mem := plain.noQuote (isPart _ mem)
  noHash mem := plain.noHash (isPart _ mem)
  noSlash mem := plain.noSlash (isPart _ mem)

/-- No lexeme begins at a character that no mark has, but for the sign of a verbatim literal. -/
theorem lexemeAt_eq_none {rest : Text} (noQuote : c ≠ '"') (noHash : c ≠ '#') (noSlash : c ≠ '/')
    (apart : c = '@' → rest.head? ≠ some '"') : lexemeAt (c :: rest) = none := by
  unfold lexemeAt
  split
  · next eq => exact absurd (List.cons.inj eq).1 noSlash
  · next eq => exact absurd (List.cons.inj eq).1 noSlash
  · next eq => exact absurd (List.cons.inj eq).1 noHash
  · next eq => exact absurd (List.cons.inj eq).1 noQuote
  · next eq =>
      obtain ⟨rfl, rfl⟩ := List.cons.inj eq
      exact absurd rfl (apart rfl)
  · rfl

/-- **The scan passes over a text in which no mark begins.** -/
theorem strip_append (plain : Commentless front)
    (apart : front.getLast? = some '@' → back.head? ≠ some '"') :
    strip (front ++ back) = front ++ strip back := by
  induction front with
  | nil => rfl
  | cons c front ih =>
      have later : Commentless front := plain.of_subset fun d mem => List.mem_cons_of_mem _ mem
      have noQuote : ∀ d ∈ c :: front, d ≠ '"' := fun d mem eq => plain.noQuote (eq ▸ mem)
      have none : lexemeAt (c :: (front ++ back)) = none := by
        refine lexemeAt_eq_none (noQuote c List.mem_cons_self)
          (fun eq => plain.noHash (eq ▸ List.mem_cons_self))
          (fun eq => plain.noSlash (eq ▸ List.mem_cons_self)) fun sign => ?_
        cases front with
        | nil => exact apart (by rw [sign]; rfl)
        | cons d front => exact fun eq => noQuote d (by simp) (Option.some.inj eq)
      have behind : front.getLast? = some '@' → back.head? ≠ some '"' := by
        intro last
        cases front with
        | nil => cases last
        | cons d front => exact apart (by rw [List.getLast?_cons_cons, last])
      rw [List.cons_append, strip_of_none none, ih later behind, List.cons_append]

theorem strip_space (back : Text) : strip (' ' :: back) = ' ' :: strip back :=
  strip_of_none rfl

theorem strip_of_commentless (plain : Commentless text) : strip text = text := by
  have whole : strip (text ++ []) = text ++ strip [] := strip_append plain (by simp)
  simpa using whole

end Commentless

/-! ### Comments -/

/-- A block comment. -/
def blockComment (text : Text) : Text :=
  "/*".toList ++ text ++ "*/".toList

/-- A line comment with its line end. -/
def lineComment (text : Text) : Text :=
  "//".toList ++ text ++ ['\n']

section Comments

variable {front back text : Text}

/-- A block comment ends at the first mark that closes it. -/
theorem blockEnd_append_close (closed : ¬ "*/".toList <:+: text) (back : Text) :
    blockEnd (text ++ ("*/".toList ++ back)) = some (text ++ "*/".toList, back) := by
  induction text with
  | nil => rfl
  | cons c text ih =>
      have later : ¬ "*/".toList <:+: text := fun found =>
        closed (found.trans (List.suffix_cons c text).isInfix)
      have goesOn : ¬(c = '*' ∧ (text ++ ("*/".toList ++ back)).head? = some '/') := by
        rintro ⟨rfl, next⟩
        cases text with
        | nil => simp at next
        | cons d text =>
            obtain rfl : d = '/' := by simpa using next
            exact closed ⟨[], text, rfl⟩
      rw [List.cons_append, blockEnd, if_neg goesOn, ih later]
      rfl

theorem lineEnd_append_cons (oneLine : '\n' ∉ text) (back : Text) :
    lineEnd (text ++ '\n' :: back) = (text ++ ['\n'], back) := by
  induction text with
  | nil => rfl
  | cons c text ih =>
      obtain ⟨first, later⟩ := List.ne_and_not_mem_of_not_mem_cons oneLine
      rw [List.cons_append, lineEnd, if_neg (Ne.symm first), ih later]
      rfl

theorem lineEnd_of_oneLine (oneLine : '\n' ∉ text) : lineEnd text = (text, []) := by
  induction text with
  | nil => rfl
  | cons c text ih =>
      obtain ⟨first, later⟩ := List.ne_and_not_mem_of_not_mem_cons oneLine
      rw [lineEnd, if_neg (Ne.symm first), ih later]
      rfl

theorem lexemeAt_block (closed : ¬ "*/".toList <:+: text) (back : Text) :
    lexemeAt ("/*".toList ++ (text ++ ("*/".toList ++ back))) = some (blockComment text, back) := by
  have found : lexemeAt ('/' :: '*' :: (text ++ ("*/".toList ++ back))) =
      some ('/' :: '*' :: (text ++ "*/".toList), back) := by
    rw [lexemeAt, blockEnd_append_close closed]
    rfl
  exact found

section Lines

variable {mark : Text} (listed : mark ∈ ["//".toList, "#".toList])

include listed

/-- A line comment or a directive goes on to the end of its line. -/
theorem lexemeAt_lineMark (text : Text) :
    lexemeAt (mark ++ text) = some (mark ++ (lineEnd text).1, (lineEnd text).2) := by
  rcases List.mem_pair.mp listed with rfl | rfl <;> rfl

theorem lexemeAt_line (oneLine : '\n' ∉ text) (back : Text) :
    lexemeAt (mark ++ (text ++ '\n' :: back)) = some (mark ++ (text ++ ['\n']), back) := by
  rw [lexemeAt_lineMark listed, lineEnd_append_cons oneLine]

theorem lexemeAt_last_line (oneLine : '\n' ∉ text) :
    lexemeAt (mark ++ text) = some (mark ++ text, []) := by
  rw [lexemeAt_lineMark listed, lineEnd_of_oneLine oneLine]

/-- Nothing remains of a line comment or a directive that no line end follows. -/
theorem remains_last_line (oneLine : '\n' ∉ text) : remains (mark ++ text) = [] := by
  rcases List.mem_pair.mp listed with rfl | rfl
  · exact if_neg fun last => oneLine (List.mem_of_getLast? last)
  · rfl

theorem strip_last_line (oneLine : '\n' ∉ text) : strip (mark ++ text) = [] := by
  rw [strip_of_some (lexemeAt_last_line listed oneLine), remains_last_line listed oneLine,
    strip_nil]
  rfl

end Lines

theorem remains_line (text : Text) : remains ("//".toList ++ (text ++ ['\n'])) = ['\n'] := by
  simp [remains]

/-- **A block comment leaves nothing.** -/
theorem strip_block (closed : ¬ "*/".toList <:+: text) (back : Text) :
    strip (blockComment text ++ back) = strip back := by
  rw [blockComment, List.append_assoc, List.append_assoc,
    strip_of_some (lexemeAt_block closed back)]
  rfl

/-- **A line comment leaves its line end.** -/
theorem strip_line (oneLine : '\n' ∉ text) (back : Text) :
    strip (lineComment text ++ back) = '\n' :: strip back := by
  rw [lineComment, List.append_assoc, List.append_assoc,
    List.singleton_append, strip_of_some (lexemeAt_line List.mem_cons_self oneLine back),
    remains_line]
  rfl

theorem strip_append_block (plain : Commentless front) (closed : ¬ "*/".toList <:+: text)
    (back : Text) : strip (front ++ (blockComment text ++ back)) = front ++ strip back := by
  rw [strip_append plain (by simp [blockComment]), strip_block closed]

end Comments

end CrossShade.Comment
