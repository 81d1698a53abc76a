import CrossShade.Text

/-!
Replacing the occurrences of a word in a text. Occurrences are found from left to right
and never overlap: the search goes on behind the one it found, whether that one is
replaced or left as it is.
-/

namespace CrossShade.Text

/-- Replace the occurrences of `word` that `accept` lets through. `accept` sees the
characters next to the occurrence, `before` is the one in front of the text, and the first
`skip` characters belong to an occurrence that is already dealt with. -/
def replaceFrom (accept : Option Char → Option Char → Bool) (word value : Text) :
    Option Char → Nat → Text → Text
  | _, _, [] => []
  | _, skip + 1, c :: rest => replaceFrom accept word value (some c) skip rest
  | before, 0, c :: rest =>
      if word.isPrefixOf (c :: rest) then
        (if accept before ((c :: rest).drop word.length).head? then value else word)
          ++ replaceFrom accept word value (some c) (word.length - 1) rest
      else c :: replaceFrom accept word value (some c) 0 rest

/-- Replace every occurrence of `word`. The empty word occurs nowhere. -/
def replaceAll (word value text : Text) : Text :=
  if word.isEmpty then text else replaceFrom (fun _ _ => true) word value none 0 text

/-- Whether a neighbouring character leaves an occurrence standing on its own. -/
def standsApart (neighbour : Option Char) : Bool :=
  !neighbour.any isIdentifierChar

/-- Replace the occurrences of `word` that no identifier character touches. -/
def replaceWhole (word value text : Text) : Text :=
  if word.isEmpty then text
  else replaceFrom (fun before after => standsApart before && standsApart after) word value none 0 text

end CrossShade.Text
