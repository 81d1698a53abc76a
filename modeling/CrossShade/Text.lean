import CrossShade.Text.Ranges

/-!
Text as the list of its characters, and the operations on it that every part of the
library shares: blanks and trimming, decimal numbers, and the length in bytes that
reports give.
-/

namespace CrossShade

/-- Text, character by character. -/
abbrev Text := List Char

namespace Text

/-- The digits of a number in base ten. -/
def ofNat (number : Nat) : Text :=
  Nat.toDigits 10 number

/-- The number of bytes the text takes when it is stored as UTF-8. -/
def byteLength (text : Text) : Nat :=
  text.foldr (fun c total => c.utf8Size + total) 0

/-- The code points with the Unicode property White_Space. -/
def blankRanges : Ranges := [
  (0x9, 0xD), (0x20, 0x20), (0x85, 0x85), (0xA0, 0xA0), (0x1680, 0x1680), (0x2000, 0x200A),
  (0x2028, 0x2029), (0x202F, 0x202F), (0x205F, 0x205F), (0x3000, 0x3000)]

/-- White space in the sense of Unicode. -/
def isBlank (c : Char) : Bool :=
  blankRanges.has c.toNat

/-- The text without its leading blanks. -/
def trimStart (text : Text) : Text :=
  text.dropWhile isBlank

/-- The text without its trailing blanks. -/
def trimEnd (text : Text) : Text :=
  (text.reverse.dropWhile isBlank).reverse

/-- The text without blanks at either end. -/
def trim (text : Text) : Text :=
  trimEnd (trimStart text)

/-- ASCII letters, digits and the underscore: what shader identifiers are made of. -/
def isIdentifierChar (c : Char) : Bool :=
  c.isAlphanum || c == '_'

/-- The texts one after another, with `separator` between neighbours. -/
def join (separator : Text) (texts : List Text) : Text :=
  separator.intercalate texts

end Text

end CrossShade
