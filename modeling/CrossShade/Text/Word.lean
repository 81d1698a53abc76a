import CrossShade.Text
import CrossShade.Text.Letter
import CrossShade.Text.Mark
import CrossShade.Text.Number
import CrossShade.Text.Recent

/-!
Letters, digits and word characters in the sense of Unicode. The ASCII part of each
class is decided by comparison, so that a statement about ASCII text never reads the
tables.

Letters and numbers are those of version 17 of the standard; digits and word characters,
which patterns ask for, are those of version 16.
-/

namespace CrossShade.Text

/-- Alphabetic characters. -/
def isLetter (c : Char) : Bool :=
  if c.toNat < 0x80 then c.isAlpha
  else letterRanges.has c.toNat || recentLetterRanges.has c.toNat

/-- Decimal digits of any script. -/
def isDigit (c : Char) : Bool :=
  if c.toNat < 0x80 then c.isDigit else digitRanges.has c.toNat

/-- Numeric characters of any kind that are not letters. -/
def isNumber (c : Char) : Bool :=
  isDigit c || otherNumberRanges.has c.toNat || recentNumberRanges.has c.toNat

/-- Connector punctuation and the two joiners, beyond the ASCII underscore. -/
def joinerRanges : Ranges := [
  (0x200C, 0x200D), (0x203F, 0x2040), (0x2054, 0x2054), (0xFE33, 0xFE34), (0xFE4D, 0xFE4F),
  (0xFF3F, 0xFF3F)]

/-- Word characters: letters, digits, marks, connectors and joiners. -/
def isWordChar (c : Char) : Bool :=
  if c.toNat < 0x80 then isIdentifierChar c
  else letterRanges.has c.toNat || digitRanges.has c.toNat || markRanges.has c.toNat
    || joinerRanges.has c.toNat

end CrossShade.Text
