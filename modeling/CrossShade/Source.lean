import CrossShade.Comment
import CrossShade.Layout
import CrossShade.Substitution

/-!
Source text made ready for reading: names substituted, comments and directives taken out,
and everything laid out on one line. Names are substituted first, inside comments as
anywhere else.
-/

namespace CrossShade.Source

/-- The text without the byte order mark that may stand before it. -/
def dropMark (text : Text) : Text :=
  match text with
  | [] => []
  | c :: rest => if c = Char.ofNat 0xFEFF then rest else c :: rest

/-- The text ready for reading. -/
def prepare (table : Substitution.Table) (mode : Substitution.Mode) (text : Text) : Text :=
  Layout.fold (Comment.strip (table.apply mode (dropMark text)))

end CrossShade.Source
