import CrossShade.Pattern.Match

/-!
Comments and directives. A block comment and a directive line leave nothing behind, and a
line comment leaves its line end. What stands inside a string literal is no comment, so
literals are matched too and kept as they are.

A line ends at a line feed only. A block comment that is never closed is no comment, and a
quote without a partner on its line opens no literal.
-/

namespace CrossShade.Comment

open CrossShade.Pattern

/-- A block comment up to the first mark that closes it. -/
def block : Regex :=
  .concat [.literal "/*".toList, .span false .all, .literal "*/".toList]

/-- The rest of a line with its line end, if it has one. -/
def restOfLine : Regex :=
  .seq (.span true (.except '\n')) (.optional true (.char '\n'))

/-- A line comment with its line end. -/
def line : Regex :=
  .seq (.literal "//".toList) restOfLine

/-- A directive with its line end. -/
def directive : Regex :=
  .seq (.char '#') restOfLine

/-- A character of a string literal: a backslash with the character it escapes, or any
character but a quote. -/
def literalChar : Regex :=
  .alt (.seq (.char '\\') (.set (.except '\n'))) (.set (.inter (.except '"') (.except '\n')))

/-- A string literal on one line. -/
def literal : Regex :=
  .concat [.char '"', .times true 0 none literalChar, .char '"']

/-- A verbatim literal: an at sign and adjacent quoted runs, which may span lines. -/
def verbatim : Regex :=
  .seq (.char '@')
    (.times true 1 none (.concat [.char '"', .span true (.except '"'), .char '"']))

/-- What the scan stops at. -/
def lexeme : Regex :=
  .choice [block, line, directive, literal, verbatim]

/-- What is left of a lexeme. -/
def remains (text : Text) : Text :=
  match text with
  | '/' :: '*' :: _ => []
  | '#' :: _ => []
  | '/' :: '/' :: rest => if rest.getLast? = some '\n' then ['\n'] else []
  | _ => text

/-- The text without its comments and directives. -/
def strip (text : Text) : Text :=
  lexeme.replaceAll (fun found => remains found.text) text

end CrossShade.Comment
