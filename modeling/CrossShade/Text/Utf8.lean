import CrossShade.Text

/-!
Reading and writing text as UTF-8 bytes. A failed reading tells where the valid part
ends and how much of what follows could not begin a character.
-/

namespace CrossShade.Utf8

/-- The contents of a file. -/
abbrev Bytes := List UInt8

/-- Why bytes are not UTF-8: a sequence that no character has, of one to three bytes, or
input that stops inside a character. Both carry the length of the valid part before it. -/
inductive Fault where
  | invalid (length : Nat) (index : Nat)
  | incomplete (index : Nat)
deriving DecidableEq, Repr

/-- The sentence that reports the fault. -/
def Fault.message : Fault → Text
  | .invalid length index =>
      "invalid utf-8 sequence of ".toList ++ Text.ofNat length ++ " bytes from index ".toList
        ++ Text.ofNat index
  | .incomplete index => "incomplete utf-8 byte sequence from index ".toList ++ Text.ofNat index

/-- The bytes of a text. -/
def encode (text : Text) : Bytes :=
  text.flatMap String.utf8EncodeChar

/-- What a leading byte announces: the ranges of the bytes that must follow, in order, or
nothing if no character starts with it. -/
def continuations (lead : UInt8) : Option (List (UInt8 × UInt8)) :=
  if lead < 0x80 then some []
  else if 0xC2 ≤ lead ∧ lead ≤ 0xDF then some [(0x80, 0xBF)]
  else if lead = 0xE0 then some [(0xA0, 0xBF), (0x80, 0xBF)]
  else if lead = 0xED then some [(0x80, 0x9F), (0x80, 0xBF)]
  else if 0xE1 ≤ lead ∧ lead ≤ 0xEF then some [(0x80, 0xBF), (0x80, 0xBF)]
  else if lead = 0xF0 then some [(0x90, 0xBF), (0x80, 0xBF), (0x80, 0xBF)]
  else if 0xF1 ≤ lead ∧ lead ≤ 0xF3 then some [(0x80, 0xBF), (0x80, 0xBF), (0x80, 0xBF)]
  else if lead = 0xF4 then some [(0x80, 0x8F), (0x80, 0xBF), (0x80, 0xBF)]
  else none

/-- What becomes of the bytes after a leading byte: all there, one out of range after
`length` good bytes (the leading one counted), or the input at its end. -/
inductive Tail where
  | complete (taken : Bytes)
  | broken (length : Nat)
  | missing
deriving DecidableEq, Repr

/-- Check the following bytes against their ranges; `length` bytes are good already. -/
def takeTail (length : Nat) : List (UInt8 × UInt8) → Bytes → Tail
  | [], _ => .complete []
  | _ :: _, [] => .missing
  | (low, high) :: ranges, byte :: bytes =>
      if low ≤ byte ∧ byte ≤ high then
        match takeTail (length + 1) ranges bytes with
        | .complete taken => .complete (byte :: taken)
        | other => other
      else .broken length

/-- The code point that a leading byte and its continuations spell. -/
def assemble (lead : UInt8) (taken : Bytes) : Nat :=
  let head := match taken.length with
    | 0 => lead.toNat
    | 1 => lead.toNat % 0x20
    | 2 => lead.toNat % 0x10
    | _ => lead.toNat % 0x08
  taken.foldl (fun code byte => code * 0x40 + byte.toNat % 0x40) head

/-- Read characters from `bytes`; `index` bytes came before, and the first `skip` of the
bytes belong to a character that is already read. -/
def decodeFrom (index : Nat) : Nat → Bytes → Except Fault Text
  | _, [] => .ok []
  | skip + 1, _ :: bytes => decodeFrom (index + 1) skip bytes
  | 0, lead :: bytes =>
      match continuations lead with
      | none => .error (.invalid 1 index)
      | some ranges =>
          match takeTail 1 ranges bytes with
          | .missing => .error (.incomplete index)
          | .broken length => .error (.invalid length index)
          | .complete taken =>
              (decodeFrom (index + 1) taken.length bytes).map (Char.ofNat (assemble lead taken) :: ·)

/-- The text that the bytes spell. -/
def decode (bytes : Bytes) : Except Fault Text :=
  decodeFrom 0 0 bytes

end CrossShade.Utf8
