import CrossShade.Pattern.Regex

/-!
The written form of patterns, lexeme by lexeme. A lexeme is a character, a set, a
condition, a repetition mark or one of the marks that open, close and divide groups.

Reading is by the first character: `lexemeAt` looks at it and what follows and tells how
many of the following characters belong to the same lexeme.
-/

namespace CrossShade.Pattern

/-- Why a text is not a pattern. -/
inductive Fault where
  | unclosedGroup
  | unopenedGroup
  | unclosedSet
  | nothingToRepeat
  | badCount
  | reversedCount
  | badRangeEnd
  | reversedRange
  | badEscape
  | badCodePoint
  | badGroupName
  | repeatedGroupName (name : Text)
  | lookAround
  | badFlags
  | tooDeep
  | tooHeavy
deriving DecidableEq, Repr

/-- Settings that change how the rest of a group is read. -/
inductive Flag where
  | ignoreCase
  | multiLine
  | dotAll
  | swapGreed
deriving DecidableEq, Repr

/-- The letter of a flag. -/
def Flag.ofChar? : Char → Option Flag
  | 'i' => some .ignoreCase
  | 'm' => some .multiLine
  | 's' => some .dotAll
  | 'U' => some .swapGreed
  | _ => none

/-- Flags with the state each is put in. -/
abbrev FlagChange := List (Flag × Bool)

/-- One lexeme of a pattern. -/
inductive Lexeme where
  | char (c : Char)
  | set (chars : CharSet)
  | dot
  | caret
  | dollar
  | anchor (place : Anchor)
  | openCapture (name : Option Text)
  | openPlain (change : FlagChange)
  | flags (change : FlagChange)
  | close
  | bar
  | times (least : Nat) (most : Option Nat) (lazy : Bool)
deriving DecidableEq, Repr

/-! ### Escapes -/

/-- The value of a hexadecimal digit. -/
def hexValue? (c : Char) : Option Nat :=
  if '0' ≤ c ∧ c ≤ '9' then some (c.toNat - '0'.toNat)
  else if 'a' ≤ c ∧ c ≤ 'f' then some (c.toNat - 'a'.toNat + 10)
  else if 'A' ≤ c ∧ c ≤ 'F' then some (c.toNat - 'A'.toNat + 10)
  else none

/-- The character whose code point the hexadecimal digits spell. -/
def hexChar? (digits : Text) : Except Fault Char :=
  match digits.mapM hexValue? with
  | none => .error .badCodePoint
  | some values =>
      let code := values.foldl (fun code value => code * 16 + value) 0
      if digits.isEmpty || !code.isValidChar then .error .badCodePoint
      else .ok (Char.ofNat code)

/-- The text up to a character, if that character comes. -/
def upTo? (stop : Char) (text : Text) : Option Text :=
  if text.contains stop then some (text.takeWhile (· != stop)) else none

/-- A code point in braces, or in exactly `width` digits; with the characters it takes. -/
def codePointAt (width : Nat) (text : Text) : Except Fault (Char × Nat) :=
  match text with
  | '{' :: rest =>
      match upTo? '}' rest with
      | none => .error .badCodePoint
      | some digits => return (← hexChar? digits, digits.length + 2)
  | _ =>
      if text.length < width then .error .badCodePoint
      else return (← hexChar? (text.take width), width)

/-- What an escape stands for. -/
inductive Escape where
  | char (c : Char)
  | set (chars : CharSet)
  | anchor (place : Anchor)
deriving DecidableEq, Repr

/-- The characters of ASCII that stand for themselves after a backslash: all but letters,
digits and the angle brackets. -/
def isEscapable (c : Char) : Bool :=
  decide (c.toNat < 0x80) && !c.isAlphanum && c != '<' && c != '>'

/-- The escape whose backslash stands before `text`, and how many characters of `text` it
takes. -/
def escapeAt (text : Text) : Except Fault (Escape × Nat) :=
  match text with
  | [] => .error .badEscape
  | c :: rest =>
      match c with
      | 'd' => .ok (.set .digit, 1)
      | 'D' => .ok (.set (.compl .digit), 1)
      | 's' => .ok (.set .blank, 1)
      | 'S' => .ok (.set (.compl .blank), 1)
      | 'w' => .ok (.set .word, 1)
      | 'W' => .ok (.set (.compl .word), 1)
      | 'b' => .ok (.anchor .wordEdge, 1)
      | 'B' => .ok (.anchor .noWordEdge, 1)
      | 'A' => .ok (.anchor .textStart, 1)
      | 'z' => .ok (.anchor .textEnd, 1)
      | 't' => .ok (.char '\t', 1)
      | 'n' => .ok (.char '\n', 1)
      | 'r' => .ok (.char '\r', 1)
      | 'a' => .ok (.char (Char.ofNat 0x07), 1)
      | 'f' => .ok (.char (Char.ofNat 0x0C), 1)
      | 'v' => .ok (.char (Char.ofNat 0x0B), 1)
      | 'x' => (codePointAt 2 rest).map fun (c, length) => (.char c, length + 1)
      | 'u' => (codePointAt 4 rest).map fun (c, length) => (.char c, length + 1)
      | 'U' => (codePointAt 8 rest).map fun (c, length) => (.char c, length + 1)
      | c => if isEscapable c then .ok (.char c, 1) else .error .badEscape

/-! ### Sets in brackets -/

/-- The operators between the parts of a bracketed set. -/
inductive SetOp where
  | inter
  | diff
  | symmDiff
deriving DecidableEq, Repr

/-- What an operator makes of the sets on its two sides. -/
def SetOp.apply : SetOp → CharSet → CharSet → CharSet
  | .inter, left, right => .inter left right
  | .diff, left, right => .inter left (.compl right)
  | .symmDiff, left, right =>
      .union (.inter left (.compl right)) (.inter right (.compl left))

/-- A bracketed set that is being read: whether it is negated, the operator and left side
that wait for a right side, and the members since then, last first. -/
structure OpenSet where
  negated : Bool
  pending : Option (SetOp × CharSet)
  members : List CharSet

namespace OpenSet

/-- Everything read so far. -/
def current (set : OpenSet) : CharSet :=
  let members := CharSet.unions set.members.reverse
  match set.pending with
  | none => members
  | some (op, left) => op.apply left members

/-- Put in one more member. -/
def add (set : OpenSet) (chars : CharSet) : OpenSet :=
  { set with members := chars :: set.members }

/-- Everything read so far becomes the left side of an operator. -/
def operate (set : OpenSet) (op : SetOp) : OpenSet :=
  { set with pending := some (op, set.current), members := [] }

/-- The set, once its bracket closes. -/
def finish (set : OpenSet) : CharSet :=
  if set.negated then .compl set.current else set.current

end OpenSet

/-- The beginning of a bracketed set behind its bracket, and how many characters it takes:
a caret negates, and hyphens, or else a closing bracket, stand for themselves there. -/
def openSetAt (text : Text) : OpenSet × Nat :=
  let negated := text.head? == some '^'
  let inner := if negated then text.drop 1 else text
  let taken := if negated then 1 else 0
  let hyphens := (inner.takeWhile (· == '-')).length
  if hyphens = 0 ∧ inner.head? = some ']' then
    (⟨negated, none, [.single ']']⟩, taken + 1)
  else (⟨negated, none, List.replicate hyphens (.single '-')⟩, taken + hyphens)

/-- A member of a bracketed set: one character, or a set by name; with the characters it
takes. -/
def memberAt (c : Char) (rest : Text) : Except Fault (Sum Char CharSet × Nat) :=
  if c = '\\' then
    match escapeAt rest with
    | .error fault => .error fault
    | .ok (.char c, length) => .ok (.inl c, length + 1)
    | .ok (.set chars, length) => .ok (.inr chars, length + 1)
    | .ok (.anchor _, _) => .error .badEscape
  else .ok (.inl c, 1)

/-- A range, or a single member where no range follows. A hyphen before a closing bracket
or another hyphen makes no range. -/
def rangeAt (c : Char) (rest : Text) : Except Fault (CharSet × Nat) := do
  let (first, length) ← memberAt c rest
  let lone := match first with
    | .inl c => CharSet.single c
    | .inr chars => chars
  match (c :: rest).drop length with
  | '-' :: ']' :: _ => return (lone, length)
  | '-' :: '-' :: _ => return (lone, length)
  | '-' :: d :: behind =>
      let (last, lastLength) ← memberAt d behind
      match first, last with
      | .inl low, .inl high =>
          if low ≤ high then return (.range low high, length + 1 + lastLength)
          else throw .reversedRange
      | _, _ => throw .badRangeEnd
  | _ => return (lone, length)

/-- Read a bracketed set from behind its opening. `outer` are the sets around the one that
is being read, and the first `skip` characters are dealt with. The result comes with the
text behind the closing bracket. -/
def setFrom : Nat → OpenSet → List OpenSet → Text → Except Fault (CharSet × Text)
  | _, _, _, [] => .error .unclosedSet
  | skip + 1, set, outer, _ :: rest => setFrom skip set outer rest
  | 0, set, outer, c :: rest =>
      if c = '[' then
        let (inner, length) := openSetAt rest
        setFrom length inner (set :: outer) rest
      else if c = ']' then
        match outer with
        | [] => .ok (set.finish, rest)
        | around :: outer => setFrom 0 (around.add set.finish) outer rest
      else if c = '&' ∧ rest.head? = some '&' then setFrom 1 (set.operate .inter) outer rest
      else if c = '-' ∧ rest.head? = some '-' then setFrom 1 (set.operate .diff) outer rest
      else if c = '~' ∧ rest.head? = some '~' then setFrom 1 (set.operate .symmDiff) outer rest
      else
        match rangeAt c rest with
        | .error fault => .error fault
        | .ok (chars, length) => setFrom (length - 1) (set.add chars) outer rest

/-- The bracketed set whose bracket stands before `text`, and how many characters of `text`
it takes. -/
def setAt (text : Text) : Except Fault (CharSet × Nat) :=
  let (set, length) := openSetAt text
  match setFrom length set [] text with
  | .error fault => .error fault
  | .ok (chars, rest) => .ok (chars, text.length - rest.length)

/-! ### Repetition counts -/

/-- The most rounds that a counted repetition may ask for. -/
def mostRounds : Nat := 0xFFFFFFFF

/-- A number of rounds in base ten, which may have blanks on both sides. -/
def count? (text : Text) : Option Nat :=
  let digits := Text.trim text
  let count := digits.foldl (fun value c => value * 10 + (c.toNat - '0'.toNat)) 0
  if digits.isEmpty || !digits.all Char.isDigit || decide (mostRounds < count) then none
  else some count

/-- The bounds between the braces of a counted repetition. -/
def bounds (text : Text) : Except Fault (Nat × Option Nat) :=
  match upTo? ',' text with
  | none =>
      match count? text with
      | some count => .ok (count, some count)
      | none => .error .badCount
  | some low =>
      let high := text.drop (low.length + 1)
      match count? low with
      | none => .error .badCount
      | some least =>
          if high.isEmpty then .ok (least, none)
          else match count? high with
            | none => .error .badCount
            | some most => if least ≤ most then .ok (least, some most) else .error .reversedCount

/-- The repetition mark with the given bounds; a question mark behind it makes it lazy. -/
def timesAt (least : Nat) (most : Option Nat) (taken : Nat) (rest : Text) : Lexeme × Nat :=
  if rest.head? = some '?' then (.times least most true, taken + 1)
  else (.times least most false, taken)

/-! ### Group heads -/

/-- The first character of a group name is a letter or an underscore; later ones may also be
numbers, dots and brackets. -/
def isGroupName (name : Text) : Bool :=
  match name with
  | [] => false
  | c :: rest =>
      (Text.isLetter c || c == '_') &&
        rest.all fun c =>
          Text.isLetter c || Text.isNumber c || c == '_' || c == '.' || c == '[' || c == ']'

/-- A named group whose name stands at the start of `text`. -/
def namedGroupAt (text : Text) : Except Fault (Lexeme × Nat) :=
  match upTo? '>' text with
  | none => .error .badGroupName
  | some name =>
      if isGroupName name then .ok (.openCapture (some name), name.length + 1)
      else .error .badGroupName

/-- Read flag letters; those behind a hyphen are switched off. -/
def flagsFrom (state : Bool) (change : FlagChange) : Text → Except Fault FlagChange
  | [] => .ok change.reverse
  | c :: rest =>
      if c = '-' then
        if state && !rest.isEmpty then flagsFrom false change rest else .error .badFlags
      else match Flag.ofChar? c with
        | none => .error .badFlags
        | some flag =>
            if change.any (·.1 == flag) then .error .badFlags
            else flagsFrom state ((flag, state) :: change) rest

/-- A group or a setting whose question mark stands before `text`. -/
def markedGroupAt (text : Text) : Except Fault (Lexeme × Nat) :=
  match text with
  | '=' :: _ => .error .lookAround
  | '!' :: _ => .error .lookAround
  | '<' :: '=' :: _ => .error .lookAround
  | '<' :: '!' :: _ => .error .lookAround
  | 'P' :: '<' :: rest => (namedGroupAt rest).map fun (lexeme, length) => (lexeme, length + 2)
  | '<' :: rest => (namedGroupAt rest).map fun (lexeme, length) => (lexeme, length + 1)
  | _ =>
      let letters := text.takeWhile fun c => c != ':' && c != ')'
      match flagsFrom true [] letters with
      | .error fault => .error fault
      | .ok change =>
          match (text.drop letters.length).head? with
          | some ':' => .ok (.openPlain change, letters.length + 1)
          | some _ =>
              if letters.isEmpty then .error .nothingToRepeat
              else .ok (.flags change, letters.length + 1)
          | none => .error .badFlags

/-! ### Lexemes -/

/-- The lexeme that starts with `c`, and how many characters of `rest` belong to it. -/
def lexemeAt (c : Char) (rest : Text) : Except Fault (Lexeme × Nat) :=
  match c with
  | '.' => .ok (.dot, 0)
  | '^' => .ok (.caret, 0)
  | '$' => .ok (.dollar, 0)
  | '|' => .ok (.bar, 0)
  | ')' => .ok (.close, 0)
  | '*' => .ok (timesAt 0 none 0 rest)
  | '+' => .ok (timesAt 1 none 0 rest)
  | '?' => .ok (timesAt 0 (some 1) 0 rest)
  | '{' =>
      match upTo? '}' rest with
      | none => .error .badCount
      | some inner =>
          (bounds inner).map fun (least, most) =>
            timesAt least most (inner.length + 1) (rest.drop (inner.length + 1))
  | '(' =>
      match rest with
      | '?' :: inner => (markedGroupAt inner).map fun (lexeme, length) => (lexeme, length + 1)
      | _ => .ok (.openCapture none, 0)
  | '[' => (setAt rest).map fun (chars, length) => (.set chars, length)
  | '\\' =>
      (escapeAt rest).map fun
        | (.char c, length) => (.char c, length)
        | (.set chars, length) => (.set chars, length)
        | (.anchor place, length) => (.anchor place, length)
  | c => .ok (.char c, 0)

/-- The lexemes of a text whose first `skip` characters belong to a lexeme already read. -/
def lexemesFrom : Nat → Text → Except Fault (List Lexeme)
  | _, [] => .ok []
  | skip + 1, _ :: rest => lexemesFrom skip rest
  | 0, c :: rest =>
      match lexemeAt c rest with
      | .error fault => .error fault
      | .ok (lexeme, length) => (lexemesFrom length rest).map (lexeme :: ·)

/-- The lexemes of a pattern. -/
def lexemes (text : Text) : Except Fault (List Lexeme) :=
  lexemesFrom 0 text

end CrossShade.Pattern
