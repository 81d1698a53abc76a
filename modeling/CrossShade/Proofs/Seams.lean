import CrossShade.Proofs.Folding
import CrossShade.Proofs.TokenReading

/-!
Texts put together. Two texts have the same tokens together as they have apart, unless a word
goes on to the end of the first and the second begins with a character that is no delimiter: then
the word is one token with the characters behind it.

* `all_append_iff`: when the tokens of two texts are those of the first and then those of the
  second.
* `all_cut_and_joined`: a delimiter keeps the tokens on its two sides apart, and tokens with spaces
  between them are read back.
* `all_fold_append_iff`: the same for texts that are folded.
-/

namespace CrossShade.Token

/-! ### Words at the end of a text -/

/-- Whether a character belongs to a word. `within` tells that one has begun before it. -/
def continues (within : Bool) (c : Char) : Bool :=
  !isDelimiter c && (within || !Text.isBlank c)

/-- Whether a word goes on to the end of the text. -/
def inWord (text : Text) : Bool :=
  text.foldl continues false

section Ends

variable {c : Char} {gap token text front back : Text}

theorem continues_of_delimiter (within : Bool) (delimiter : isDelimiter c = true) :
    continues within c = false := by
  simp [continues, delimiter]

theorem inWord_of_allBlank (blank : Text.AllBlank gap) : inWord gap = false := by
  rw [inWord]
  induction gap with
  | nil => rfl
  | cons c gap ih =>
      have outside : continues false c = false := by
        simp [continues, blank c List.mem_cons_self]
      rw [List.foldl_cons, outside]
      exact ih fun d mem => blank d (List.mem_cons_of_mem _ mem)

/-- No word goes on across a delimiter. -/
theorem inWord_append_cons (delimiter : isDelimiter c = true) (front back : Text) :
    inWord (front ++ c :: back) = inWord back := by
  rw [inWord, List.foldl_append, List.foldl_cons, continues_of_delimiter _ delimiter, inWord]

theorem foldl_continues_true (letters : ∀ c ∈ text, isDelimiter c = false) :
    text.foldl continues true = true := by
  induction text with
  | nil => rfl
  | cons c text ih =>
      have inside : continues true c = true := by
        simp [continues, letters c List.mem_cons_self]
      rw [List.foldl_cons, inside]
      exact ih fun d mem => letters d (List.mem_cons_of_mem _ mem)

theorem inWord_append_word (word : Word token) (front : Text) : inWord (front ++ token) = true := by
  obtain ⟨c, behind, rfl⟩ := List.exists_cons_of_ne_nil word.nonempty
  rw [inWord, List.foldl_append, List.foldl_cons]
  have begins : continues (front.foldl continues false) c = true := by
    simp [continues, word.whole c List.mem_cons_self, word.solid c rfl]
  rw [begins]
  exact foldl_continues_true fun d mem => word.whole d (List.mem_cons_of_mem _ mem)

/-- A word that ends before the end of the text is forgotten there. -/
theorem inWord_append_of_endsWord (ends : EndsWord back) (nonempty : back ≠ []) (front : Text) :
    inWord (front ++ back) = inWord back := by
  obtain ⟨c, rest, rfl⟩ := List.exists_cons_of_ne_nil nonempty
  have delimiter : isDelimiter c = true := ends c rfl
  rw [inWord_append_cons delimiter]
  exact (inWord_append_cons delimiter [] rest).symm

end Ends

/-! ### Rows put together -/

section Rows

variable {tokens others : List Text} {gap front back text letters rest : Text}

theorem Spells.append_blanks (blank : Text.AllBlank gap) (row : Spells tokens text) :
    Spells tokens (gap ++ text) := by
  cases row with
  | blanks more => exact .blanks (Text.allBlank_append.mpr ⟨blank, more⟩)
  | @mark inner behind c _ more delimiter visible row =>
      rw [← List.append_assoc]
      exact .mark (Text.allBlank_append.mpr ⟨blank, more⟩) delimiter visible row
  | @word inner token behind _ more word ends row =>
      rw [← List.append_assoc, ← List.append_assoc]
      exact .word (Text.allBlank_append.mpr ⟨blank, more⟩) word ends row

theorem Spells.eq_nil (row : Spells tokens []) : tokens = [] := by
  cases tokens with
  | nil => rfl
  | cons token tokens =>
      obtain ⟨-, part⟩ := row.mem List.mem_cons_self
      exact absurd (List.infix_nil.mp part) (row.nonempty List.mem_cons_self)

/-- Rows put together, where no word meets what would belong to it. -/
theorem Spells.append (row : Spells tokens front) (more : Spells others back)
    (apart : inWord front = true → EndsWord back) : Spells (tokens ++ others) (front ++ back) := by
  induction row with
  | blanks blank => exact more.append_blanks blank
  | @mark gap text c tokens blank delimiter visible row ih =>
      rw [List.append_assoc, List.cons_append]
      refine .mark blank delimiter visible (ih fun within => apart ?_)
      rw [inWord_append_cons delimiter, within]
  | @word gap token text tokens blank word ends row ih =>
      rw [List.append_assoc]
      by_cases last : text = []
      · subst last
        rw [List.append_nil] at apart
        have stops := apart (inWord_append_word word gap)
        exact .word blank word stops (ih fun _ => stops)
      · refine .word blank word (fun c first => ends c ?_) (ih fun within => apart ?_)
        · rwa [List.head?_append_of_ne_nil _ last] at first
        · rw [inWord_append_of_endsWord ends last, within]

/-- A word at the end of a row takes in the characters that follow it up to a delimiter. -/
theorem Spells.exists_joined (row : Spells tokens front) (within : inWord front = true)
    (whole : ∀ c ∈ letters, isDelimiter c = false) (ends : EndsWord rest)
    (more : Spells others rest) :
    ∃ others' token, tokens = others' ++ [token] ∧
      Spells (others' ++ (token ++ letters) :: others) (front ++ (letters ++ rest)) := by
  induction row with
  | blanks blank =>
      rw [inWord_of_allBlank blank] at within
      cases within
  | @mark gap text c tokens blank delimiter visible row ih =>
      rw [inWord_append_cons delimiter] at within
      obtain ⟨before, token, eq, joined⟩ := ih within
      refine ⟨[c] :: before, token, by rw [eq, List.cons_append], ?_⟩
      rw [List.append_assoc, List.cons_append]
      exact .mark blank delimiter visible joined
  | @word gap token text tokens blank word stops row ih =>
      by_cases last : text = []
      · subst last
        refine ⟨[], token, by rw [row.eq_nil, List.nil_append], ?_⟩
        have longer : Word (token ++ letters) := by
          refine ⟨List.append_ne_nil_of_left_ne_nil word.nonempty _, fun c first => ?_,
            fun c mem => (List.mem_append.mp mem).elim (word.whole c) (whole c)⟩
          rw [List.head?_append_of_ne_nil _ word.nonempty] at first
          exact word.solid c first
        have shape : gap ++ token ++ [] ++ (letters ++ rest) =
            gap ++ (token ++ letters) ++ rest := by simp
        rw [shape]
        exact .word blank longer ends more
      · rw [inWord_append_of_endsWord stops last] at within
        obtain ⟨before, other, eq, joined⟩ := ih within
        refine ⟨token :: before, other, by rw [eq, List.cons_append], ?_⟩
        rw [List.append_assoc]
        refine .word blank word (fun c first => stops c ?_) joined
        rwa [List.head?_append_of_ne_nil _ last] at first

end Rows

/-! ### Tokens of texts put together -/

section Together

variable {front back : Text}

theorem all_append (apart : inWord front = true → EndsWord back) :
    all (front ++ back) = all front ++ all back :=
  ((spells_all front).append (spells_all back) apart).all_eq

/-- Where a word meets more of its kind, its token grows. -/
theorem all_append_ne (within : inWord front = true) (goesOn : ¬ EndsWord back) :
    all (front ++ back) ≠ all front ++ all back := by
  obtain ⟨letters, rest, eq, whole, ends⟩ : ∃ letters rest, back = letters ++ rest ∧
      (∀ c ∈ letters, isDelimiter c = false) ∧ EndsWord rest :=
    ⟨back.takeWhile (!isDelimiter ·), back.dropWhile (!isDelimiter ·),
      List.takeWhile_append_dropWhile.symm, fun c mem => by simpa using List.mem_takeWhile_imp mem,
      endsWord_dropWhile back⟩
  have some : letters ≠ [] := by
    rintro rfl
    exact goesOn (eq ▸ ends)
  obtain ⟨before, token, last, joined⟩ :=
    (spells_all front).exists_joined within whole ends (spells_all rest)
  rw [last, eq, joined.all_eq, List.append_assoc]
  intro same
  have longer := (List.cons.inj (List.append_cancel_left same)).1
  exact some (List.append_right_eq_self.mp longer)

/-- **Two texts have the same tokens together as apart** exactly if no word goes on from the first
to the second. -/
theorem all_append_iff :
    all (front ++ back) = all front ++ all back ↔ (inWord front = true → EndsWord back) := by
  constructor
  · intro eq within
    by_contra goesOn
    exact all_append_ne within goesOn eq
  · exact all_append

end Together

/-! ### Delimiters between texts -/

section Between

variable {c : Char} {token : Text} {tokens : List Text}

/-- What a delimiter is read as: the space as nothing, any other as itself. -/
def ofDelimiter (c : Char) : List Text :=
  if c = ' ' then [] else [[c]]

theorem spells_delimiter (delimiter : isDelimiter c = true) : Spells (ofDelimiter c) [c] := by
  rw [ofDelimiter]
  split
  · next space =>
      subst space
      exact .blanks (by decide)
  · next visible => exact .mark Text.allBlank_nil delimiter visible (.blanks Text.allBlank_nil)

/-- **A delimiter keeps the tokens on its two sides apart**, whatever blanks stand there. -/
theorem all_append_delimiter (delimiter : isDelimiter c = true) (front back : Text) :
    all (front ++ c :: back) = all front ++ (ofDelimiter c ++ all back) := by
  have outside : inWord [c] = false := continues_of_delimiter false delimiter
  have behind : all ([c] ++ back) = all [c] ++ all back := all_append (by simp [outside])
  rw [(spells_delimiter delimiter).all_eq] at behind
  rw [all_append fun _ => endsWord_cons delimiter]
  exact congrArg (all front ++ ·) behind

theorem IsToken.all_eq (isToken : IsToken token) : all token = [token] := by
  refine Spells.all_eq ?_
  rcases isToken with word | ⟨c, rfl, delimiter, visible⟩
  · have row := Spells.word Text.allBlank_nil word endsWord_nil (.blanks Text.allBlank_nil)
    rwa [List.nil_append, List.append_nil] at row
  · exact .mark Text.allBlank_nil delimiter visible (.blanks Text.allBlank_nil)

/-- Tokens with single spaces between them are read back. -/
theorem all_join (areTokens : ∀ token ∈ tokens, IsToken token) :
    all (Text.join [' '] tokens) = tokens := by
  induction tokens with
  | nil => exact Spells.all_eq (.blanks Text.allBlank_nil)
  | cons token tokens ih =>
      obtain ⟨isToken, others⟩ := List.forall_mem_cons.mp areTokens
      cases tokens with
      | nil => simpa [Text.join] using isToken.all_eq
      | cons other tokens =>
          have row : Text.join [' '] (token :: other :: tokens) =
              token ++ ' ' :: Text.join [' '] (other :: tokens) := by simp [Text.join]
          rw [row, all_append_delimiter rfl, isToken.all_eq, ih others]
          rfl

end Between

/-- **Reading tokens goes piece by piece and is stable.** A delimiter cuts a text into two that are
read by themselves, and is read in between; and the tokens of a text, written again with single
spaces between them, are read as they were. -/
theorem all_cut_and_joined :
    (∀ front back c, isDelimiter c = true →
      all (front ++ c :: back) = all front ++ (ofDelimiter c ++ all back)) ∧
    ∀ text, all (Text.join [' '] (all text)) = all text :=
  ⟨fun front back _ delimiter => all_append_delimiter delimiter front back,
    fun text => all_join fun _ mem => ((spells_all text).mem mem).1⟩

/-- A tab belongs to the word in front of a delimiter and to no word behind it. -/
theorem all_cut_and_joined_sample :
    isDelimiter '*' = true ∧
      all "a\t*\tb".toList = all "a\t".toList ++ (ofDelimiter '*' ++ all "\tb".toList) ∧
      all (Text.join [' '] (all "a\t*\tb".toList)) = all "a\t*\tb".toList :=
  ⟨rfl, all_cut_and_joined.1 "a\t".toList "\tb".toList '*' rfl,
    all_cut_and_joined.2 "a\t*\tb".toList⟩

/-! ### Folded texts put together -/

section Folded

open CrossShade.Layout

variable {front back text : Text}

/-- No word goes on to the end of a text that ends in spacing. -/
theorem inWord_squeeze (spaced : endsSpaced false text = true) :
    inWord (squeeze false text) = false := by
  have run : ∀ before within, endsSpaced before text = true → (before = true → within = false) →
      (squeeze before text).foldl continues within = false := by
    clear spaced
    induction text with
    | nil => exact fun before within spaced outside => outside spaced
    | cons c text ih =>
        intro before within spaced outside
        cases spacing : isSpacing c with
        | true =>
            rw [endsSpaced, spacing] at spaced
            cases before with
            | true => simpa [squeeze, spacing] using ih true within spaced outside
            | false =>
                have space : continues within ' ' = false := continues_of_delimiter within rfl
                simpa [squeeze, spacing, space] using ih true false spaced fun _ => rfl
        | false =>
            rw [endsSpaced, spacing] at spaced
            simpa [squeeze, spacing] using ih false (continues within c) spaced (by simp)
  exact run false false spaced fun _ => rfl

/-- A space in front of a text makes no difference to its tokens. -/
theorem all_squeeze (spaced : Bool) (text : Text) :
    all (squeeze spaced text) = all (squeeze false text) := by
  have space : Text.AllBlank [' '] := by decide
  cases spaced with
  | false => rfl
  | true =>
      cases text with
      | nil => rfl
      | cons c text =>
          cases spacing : isSpacing c with
          | false => simp [squeeze, spacing]
          | true =>
              have row := (spells_all (squeeze true text)).append_blanks space
              simpa [squeeze, spacing] using row.all_eq.symm

/-- **Two texts have the same tokens together as apart when they are folded** exactly if no word
goes on from the first to the second. -/
theorem all_fold_append_iff :
    all (fold (front ++ back)) = all (fold front) ++ all (fold back) ↔
      (inWord (fold front) = true → EndsWord (fold back)) := by
  simp only [fold_eq_squeeze, squeeze_append]
  cases spaced : endsSpaced false front with
  | false => exact all_append_iff
  | true =>
      -- The space that ends the first text ends its last word, whatever follows.
      have outside := inWord_squeeze spaced
      have apart : inWord (squeeze false front) = true → EndsWord (squeeze true back) := by
        simp [outside]
      rw [all_append apart, all_squeeze true]
      simp [outside]

end Folded

end CrossShade.Token
