import CrossShade.Text

/-!
White space folding. Shader text is laid out on one line with single spaces, in three
passes: line ends become spaces, tabs become two spaces, and runs of spaces shrink to one.
-/

namespace CrossShade.Layout

/-- Each line end becomes a space; a carriage return with the line feed behind it is one
line end. -/
def foldLineEnds : Text → Text
  | [] => []
  | '\r' :: '\n' :: rest => ' ' :: foldLineEnds rest
  | c :: rest => (if c = '\r' ∨ c = '\n' then ' ' else c) :: foldLineEnds rest

/-- Each tab becomes two spaces. -/
def expandTabs (text : Text) : Text :=
  text.flatMap fun c => if c = '\t' then [' ', ' '] else [c]

/-- A run of two or more spaces becomes one space. -/
def collapseSpaces : Text → Text
  | [] => []
  | [c] => [c]
  | c :: d :: rest =>
      if c = ' ' ∧ d = ' ' then collapseSpaces (d :: rest) else c :: collapseSpaces (d :: rest)

/-- The text on one line with single spaces. -/
def fold (text : Text) : Text :=
  collapseSpaces (expandTabs (foldLineEnds text))

end CrossShade.Layout
