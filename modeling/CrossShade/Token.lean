import CrossShade.Text

/-!
Tokens of shader text. A token is either one delimiter or a longest run of other
characters; blanks in front of a token are skipped. Only the space among the blanks is a
delimiter, so a tab or a line break ends no token and is skipped only where one begins.

The main facts are that reading a token takes text from the front and nothing else
(`next_append`, `next_suffix`), and that a reading which finds a token leaves less to read
(`next_length`); reading all tokens ends because of it.
-/

namespace CrossShade.Token

/-- The characters that end a token and, the space aside, are tokens themselves. -/
def delimiters : List Char :=
  [' ', '*', '<', '>', '-', '+', '/', '%', '(', ')', '{', '}', ',', ';', '[', ']']

/-- Whether the character is a delimiter. -/
def isDelimiter (c : Char) : Bool :=
  delimiters.contains c

/-- The next token and the text behind it. At the end of the text the token is empty. -/
def next (text : Text) : Text × Text :=
  match Text.trimStart text with
  | [] => ([], [])
  | c :: rest =>
      if isDelimiter c then ([c], rest)
      else ((c :: rest).takeWhile (!isDelimiter ·), (c :: rest).dropWhile (!isDelimiter ·))

/-- A word is a token that is not a delimiter. -/
def isWord (token : Text) : Bool :=
  match token with
  | [] => false
  | c :: _ => !isDelimiter c

/-! ### What one reading takes -/

/-- The token and the rest make up the text without its leading blanks. -/
theorem next_append (text : Text) : (next text).1 ++ (next text).2 = Text.trimStart text := by
  unfold next
  split
  · simp_all
  · next c rest eq =>
      split
      · simp [eq]
      · simp [eq, List.takeWhile_append_dropWhile]

/-- Reading goes on with a suffix of the text. -/
theorem next_suffix (text : Text) : (next text).2 <:+ text :=
  have whole : (next text).2 <:+ Text.trimStart text := ⟨(next text).1, next_append text⟩
  whole.trans (List.dropWhile_suffix _)

/-- Reading a token leaves less text than there was. -/
theorem next_length (text : Text) (found : (next text).1 ≠ []) :
    (next text).2.length < text.length := by
  have whole := congrArg List.length (next_append text)
  have bound : (Text.trimStart text).length ≤ text.length :=
    (List.dropWhile_suffix Text.isBlank).length_le
  have positive := List.length_pos_iff.mpr found
  simp only [List.length_append] at whole
  omega

/-! ### All tokens -/

/-- The tokens of a text in order. -/
def all (text : Text) : List Text :=
  if _found : (next text).1 = [] then [] else (next text).1 :: all (next text).2
termination_by text.length
decreasing_by exact next_length text _found

end CrossShade.Token
