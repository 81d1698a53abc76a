import CrossShade.Proofs.Blanks
import CrossShade.Token

/-!
Texts as rows of tokens. A token stands behind blanks; a word goes on up to a delimiter or
the end of the text, so blanks behind it have to begin with a space. `Spells` says of a text
which tokens it consists of, and reading takes them off one by one
(`Spells.next`, `exists_spelling_of_next`).
-/

namespace CrossShade.Token

/-- A word: characters that are no delimiters, the first of them no blank. -/
structure Word (token : Text) : Prop where
  nonempty : token ≠ []
  solid : ∀ c ∈ token.head?, Text.isBlank c = false
  whole : ∀ c ∈ token, isDelimiter c = false

/-- A token: a word, or a delimiter other than the space. -/
def IsToken (token : Text) : Prop :=
  Word token ∨ ∃ c, token = [c] ∧ isDelimiter c = true ∧ c ≠ ' '

/-- The text begins with a delimiter or is at its end, so that a word may end before it. -/
def EndsWord (text : Text) : Prop :=
  ∀ c ∈ text.head?, isDelimiter c = true

/-- The text is a row of the tokens, with blanks before, between and behind them. -/
inductive Spells : List Text → Text → Prop where
  | blanks {gap : Text} (blank : Text.AllBlank gap) : Spells [] gap
  | mark {gap text : Text} {c : Char} {tokens : List Text} (blank : Text.AllBlank gap)
      (delimiter : isDelimiter c = true) (visible : c ≠ ' ') (row : Spells tokens text) :
      Spells ([c] :: tokens) (gap ++ c :: text)
  | word {gap token text : Text} {tokens : List Text} (blank : Text.AllBlank gap)
      (isWord : Word token) (ends : EndsWord text) (row : Spells tokens text) :
      Spells (token :: tokens) (gap ++ token ++ text)

/-! ### Reading one token -/

/-- The space is the only delimiter among the blanks. -/
theorem not_blank_of_delimiter {c : Char} (delimiter : isDelimiter c = true) (visible : c ≠ ' ') :
    Text.isBlank c = false := by
  have listed : c ∈ delimiters := by simpa [isDelimiter] using delimiter
  have all : ∀ d ∈ delimiters, d ≠ ' ' → Text.isBlank d = false := by decide
  exact all c listed visible

/-- No character of an identifier is a delimiter. -/
theorem not_delimiter_of_identifierChar {c : Char} (letter : Text.isIdentifierChar c = true) :
    isDelimiter c = false := by
  have all : ∀ d ∈ delimiters, Text.isIdentifierChar d = false := by decide
  rw [← Bool.not_eq_true]
  intro delimiter
  rw [all c (by simpa [isDelimiter] using delimiter)] at letter
  cases letter

theorem word_of_identifierChars {token : Text} (nonempty : token ≠ [])
    (letters : ∀ c ∈ token, Text.isIdentifierChar c = true) : Word token where
  nonempty := nonempty
  solid c first := Text.not_blank_of_identifierChar (letters c (List.mem_of_mem_head? first))
  whole c mem := not_delimiter_of_identifierChar (letters c mem)

theorem Word.isWord {token : Text} (word : Word token) : Token.isWord token = true := by
  obtain ⟨c, rest, rfl⟩ := List.exists_cons_of_ne_nil word.nonempty
  simp [Token.isWord, word.whole c List.mem_cons_self]

theorem next_of_allBlank {gap : Text} (blank : Text.AllBlank gap) : next gap = ([], []) := by
  unfold next
  rw [Text.trimStart_eq_nil_iff.mpr blank]

theorem next_append_of_allBlank {gap : Text} (blank : Text.AllBlank gap) (text : Text) :
    next (gap ++ text) = next text := by
  unfold next
  rw [Text.trimStart_append_of_allBlank blank]

theorem next_mark {gap : Text} {c : Char} (blank : Text.AllBlank gap)
    (delimiter : isDelimiter c = true) (visible : c ≠ ' ') (rest : Text) :
    next (gap ++ c :: rest) = ([c], rest) := by
  rw [next_append_of_allBlank blank, next,
    Text.trimStart_cons_of_not_blank (not_blank_of_delimiter delimiter visible)]
  simp [delimiter]

/-- A word is read up to the delimiter that ends it. -/
theorem next_word {gap token : Text} (blank : Text.AllBlank gap) (word : Word token) {rest : Text}
    (ends : EndsWord rest) : next (gap ++ token ++ rest) = (token, rest) := by
  obtain ⟨c, behind, rfl⟩ := List.exists_cons_of_ne_nil word.nonempty
  have solid : Text.isBlank c = false := word.solid c rfl
  have letter : isDelimiter c = false := word.whole c List.mem_cons_self
  have letters : ∀ d ∈ c :: behind, (!isDelimiter d) = true := by
    intro d mem
    simp [word.whole d mem]
  have stop : rest.takeWhile (!isDelimiter ·) = [] ∧ rest.dropWhile (!isDelimiter ·) = rest := by
    cases rest with
    | nil => exact ⟨rfl, rfl⟩
    | cons d rest => simp [ends d rfl]
  rw [List.append_assoc, next_append_of_allBlank blank, next, List.cons_append,
    Text.trimStart_cons_of_not_blank solid]
  simp only [letter, Bool.false_eq_true, ↓reduceIte]
  rw [← List.cons_append, List.takeWhile_append_of_pos letters,
    List.dropWhile_append_of_pos letters,
    stop.1, stop.2, List.append_nil]

/-- Behind the characters up to the first delimiter a word may end. -/
theorem endsWord_dropWhile (text : Text) : EndsWord (text.dropWhile (!isDelimiter ·)) := by
  intro d first
  have stops := List.head?_dropWhile_not (!isDelimiter ·) text
  rw [Option.mem_def.mp first] at stops
  simpa using stops

/-- What reading takes off: nothing from a blank text, else blanks and one token, which is a
visible delimiter or a word that ends there. -/
theorem next_cases (text : Text) :
    (Text.AllBlank text ∧ next text = ([], [])) ∨
      (∃ gap c rest, Text.AllBlank gap ∧ isDelimiter c = true ∧ c ≠ ' ' ∧
        text = gap ++ c :: rest ∧ next text = ([c], rest)) ∨
      ∃ gap token rest, Text.AllBlank gap ∧ Word token ∧ EndsWord rest ∧
        text = gap ++ token ++ rest ∧ next text = (token, rest) := by
  obtain ⟨gap, blank, whole⟩ := Text.exists_gap_append_trimStart text
  cases left : Text.trimStart text with
  | nil =>
      have all := Text.trimStart_eq_nil_iff.mp left
      exact Or.inl ⟨all, next_of_allBlank all⟩
  | cons c rest =>
      have solid := Text.not_blank_of_trimStart_eq_cons left
      rw [left] at whole
      right
      cases delimiter : isDelimiter c with
      | true =>
          have visible : c ≠ ' ' := by
            rintro rfl
            exact absurd solid (by decide)
          exact Or.inl ⟨gap, c, rest, blank, delimiter, visible, whole,
            whole ▸ next_mark blank delimiter visible rest⟩
      | false =>
          refine Or.inr ⟨gap, (c :: rest).takeWhile (!isDelimiter ·),
            (c :: rest).dropWhile (!isDelimiter ·), blank, ?_, endsWord_dropWhile _, ?_, ?_⟩
          · refine ⟨by simp [delimiter], by simp [delimiter, solid], fun d mem => ?_⟩
            simpa using List.mem_takeWhile_imp mem
          · rw [List.append_assoc, List.takeWhile_append_dropWhile, whole]
          · rw [next, left]
            simp [delimiter]

/-- The token that is read is empty just if nothing but blanks is left. -/
theorem next_eq_nil_iff {text : Text} : (next text).1 = [] ↔ Text.AllBlank text := by
  constructor
  · intro atEnd
    rcases next_cases text with ⟨blank, -⟩ | ⟨gap, c, rest, -, -, -, -, eq⟩ |
        ⟨gap, word, rest, -, isWord, -, -, eq⟩
    · exact blank
    · rw [eq] at atEnd
      cases atEnd
    · rw [eq] at atEnd
      exact absurd atEnd isWord.nonempty
  · intro blank
    rw [next_of_allBlank blank]

/-- A visible delimiter is read only where it stands. -/
theorem next_eq_mark_iff {text rest : Text} {c : Char} (delimiter : isDelimiter c = true)
    (visible : c ≠ ' ') :
    next text = ([c], rest) ↔ ∃ gap, Text.AllBlank gap ∧ text = gap ++ c :: rest := by
  constructor
  · intro read
    rcases next_cases text with ⟨-, eq⟩ | ⟨gap, d, later, blank, -, -, whole, eq⟩ |
        ⟨gap, word, later, -, isWord, -, -, eq⟩
    · cases read.symm.trans eq
    · cases read.symm.trans eq
      exact ⟨gap, blank, whole⟩
    · cases read.symm.trans eq
      have letter := isWord.whole c List.mem_cons_self
      rw [delimiter] at letter
      cases letter
  · rintro ⟨gap, blank, rfl⟩
    exact next_mark blank delimiter visible rest

/-! ### Rows with something behind them -/

section Rows

variable {token row rest : Text} {tokens : List Text}

/-- The tokens of a row are parts of it. -/
theorem Spells.mem (spelled : Spells tokens row) (mem : token ∈ tokens) :
    IsToken token ∧ token <:+: row := by
  induction spelled with
  | blanks => exact absurd mem List.not_mem_nil
  | @mark gap text c tokens _ delimiter visible _ ih =>
      rcases List.mem_cons.mp mem with rfl | mem
      · exact ⟨Or.inr ⟨c, rfl, delimiter, visible⟩, gap, text, by simp⟩
      · obtain ⟨isToken, front, back, eq⟩ := ih mem
        exact ⟨isToken, gap ++ c :: front, back, by simp [← eq]⟩
  | @word gap token text tokens _ word _ _ ih =>
      rcases List.mem_cons.mp mem with rfl | mem
      · exact ⟨Or.inl word, gap, text, rfl⟩
      · obtain ⟨isToken, front, back, eq⟩ := ih mem
        exact ⟨isToken, gap ++ token ++ front, back, by simp [← eq]⟩

theorem IsToken.nonempty (isToken : IsToken token) : token ≠ [] := by
  rcases isToken with word | ⟨c, rfl, -⟩
  · exact word.nonempty
  · exact List.cons_ne_nil _ _

theorem Spells.nonempty (spelled : Spells tokens row) (mem : token ∈ tokens) : token ≠ [] :=
  (spelled.mem mem).1.nonempty

/-- A token that counts as a word is one. -/
theorem IsToken.word (isToken : IsToken token) (counts : isWord token = true) : Word token := by
  rcases isToken with word | ⟨c, rfl, delimiter, -⟩
  · exact word
  · simp [isWord, delimiter] at counts

theorem IsToken.not_space (isToken : IsToken token) : ' ' ∉ token := by
  rcases isToken with word | ⟨c, rfl, -, visible⟩
  · exact fun mem => absurd (word.whole ' ' mem) (by decide)
  · exact fun mem => visible (List.mem_singleton.mp mem).symm

theorem endsWord_nil : EndsWord [] :=
  fun _ first => absurd first (Option.not_mem_none _)

theorem endsWord_cons {c : Char} (delimiter : isDelimiter c = true) :
    EndsWord (c :: rest) := by
  intro d first
  cases first
  exact delimiter

theorem EndsWord.append (ends : EndsWord row) (after : EndsWord rest) : EndsWord (row ++ rest) := by
  cases row with
  | nil => exact after
  | cons c row => exact ends

/-- **Reading a row.** Before anything that ends a word, the first token of a row is read and
the rest of the row is left. -/
theorem Spells.next (spelled : Spells (token :: tokens) row) (after : EndsWord rest) :
    ∃ later, Spells tokens later ∧ Token.next (row ++ rest) = (token, later ++ rest) := by
  cases spelled with
  | @mark gap text c _ blank delimiter visible row =>
      refine ⟨text, row, ?_⟩
      rw [List.append_assoc, List.cons_append]
      exact next_mark blank delimiter visible _
  | @word gap _ text _ blank word ends row =>
      refine ⟨text, row, ?_⟩
      rw [List.append_assoc]
      exact next_word blank word (ends.append after)

/-- Behind a row that has no token left the delimiter that follows is read. -/
theorem Spells.next_mark {c : Char} (spelled : Spells [] row) (delimiter : isDelimiter c = true)
    (visible : c ≠ ' ') (rest : Text) : Token.next (row ++ c :: rest) = ([c], rest) := by
  cases spelled with
  | blanks blank => exact Token.next_mark blank delimiter visible rest

/-- A token that was read can be put before a row that ends where its text does. -/
theorem exists_spelling_of_next {text behind : Text} (found : (Token.next text).1 ≠ [])
    (row : Spells tokens behind) (left : (Token.next text).2 = behind ++ rest) :
    ∃ front, Spells ((Token.next text).1 :: tokens) front ∧ text = front ++ rest := by
  rcases next_cases text with ⟨-, eq⟩ | ⟨gap, c, later, blank, delimiter, visible, whole, eq⟩ |
      ⟨gap, word, later, blank, isWord, ends, whole, eq⟩
  · exact absurd (congrArg Prod.fst eq) found
  · rw [eq] at left ⊢
    refine ⟨gap ++ c :: behind, .mark blank delimiter visible row, ?_⟩
    simp only at left
    rw [whole, left]
    simp
  · rw [eq] at left ⊢
    simp only at left
    refine ⟨gap ++ word ++ behind, .word blank isWord ?_ row, ?_⟩
    · intro d first
      refine ends d ?_
      rw [left]
      cases behind with
      | nil => simp at first
      | cons e behind => exact first
    · rw [whole, left]
      simp

/-- Every text is a row of tokens, which are made of its characters. -/
theorem exists_spelling (text : Text) :
    ∃ tokens, Spells tokens text ∧ ∀ token ∈ tokens, ∀ c ∈ token, c ∈ text := by
  induction text using (measure List.length).wf.induction with
  | h text ih =>
      rcases next_cases text with ⟨blank, -⟩ | ⟨gap, c, rest, blank, delimiter, visible, rfl, -⟩ |
          ⟨gap, word, rest, blank, isWord, ends, rfl, -⟩
      · exact ⟨[], .blanks blank, by simp⟩
      · have shorter : rest.length < (gap ++ c :: rest).length := by
          simp only [List.length_append, List.length_cons]
          omega
        obtain ⟨tokens, row, inside⟩ := ih rest shorter
        refine ⟨[c] :: tokens, .mark blank delimiter visible row, ?_⟩
        intro token mem d letter
        rcases List.mem_cons.mp mem with rfl | mem
        · obtain rfl := List.mem_singleton.mp letter
          simp
        · simp [inside token mem d letter]
      · have positive := List.length_pos_iff.mpr isWord.nonempty
        have shorter : rest.length < (gap ++ word ++ rest).length := by
          simp only [List.length_append]
          omega
        obtain ⟨tokens, row, inside⟩ := ih rest shorter
        refine ⟨word :: tokens, .word blank isWord ends row, ?_⟩
        intro token mem d letter
        rcases List.mem_cons.mp mem with rfl | mem
        · simp [letter]
        · simp [inside token mem d letter]

end Rows

end CrossShade.Token
