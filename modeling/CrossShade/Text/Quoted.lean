import CrossShade.Text
import CrossShade.Text.Hidden

/-!
The quoted form of a text: between double quotes, with the quote, the backslash and
every character that would not be seen written as an escape.
-/

namespace CrossShade.Text

/-- The digits of a number in base sixteen, in lower case. -/
def hexDigits (number : Nat) : Text :=
  Nat.toDigits 16 number

/-- Characters that a reader could not tell from the page: the ASCII controls and the
hidden characters beyond ASCII. -/
def isHidden (c : Char) : Bool :=
  if c.toNat < 0x80 then decide (c.toNat < 0x20) || c.toNat == 0x7F
  else hiddenRanges.has c.toNat

/-- One character of a quoted text. Five escapes have a letter of their own, the quote and
the backslash stand for themselves after a backslash, and hidden characters give their
code point. -/
def quotedChar (c : Char) : Text :=
  if c = '\t' then ['\\', 't']
  else if c = '\r' then ['\\', 'r']
  else if c = '\n' then ['\\', 'n']
  else if c = Char.ofNat 0 then ['\\', '0']
  else if c = '"' then ['\\', '"']
  else if c = '\\' then ['\\', '\\']
  else if isHidden c then ['\\', 'u', '{'] ++ hexDigits c.toNat ++ ['}']
  else [c]

/-- The text between double quotes, escaped. -/
def quoted (text : Text) : Text :=
  '"' :: text.flatMap quotedChar ++ ['"']

end CrossShade.Text
