import CrossShade.Pattern

/-!
Replacement templates. A dollar sign refers to a group of the match: `$name` takes the
longest run of letters, digits and underscores, a name in braces may hold anything but a
closing brace, and a double dollar sign stands for one. A dollar sign that starts none of
these stands for itself.
-/

namespace CrossShade.Template

/-- A part of a template: a character, or a reference to a group. -/
inductive Segment where
  | char (c : Char)
  | reference (name : Text)
deriving DecidableEq, Repr

/-- The segment that a dollar sign before `rest` starts, and how many characters of `rest`
belong to it. -/
def dollarAt (rest : Text) : Segment × Nat :=
  match rest with
  | '$' :: _ => (.char '$', 1)
  | '{' :: inner =>
      match Pattern.upTo? '}' inner with
      | some name => (.reference name, name.length + 2)
      | none => (.char '$', 0)
  | _ =>
      let name := rest.takeWhile Text.isIdentifierChar
      if name.isEmpty then (.char '$', 0) else (.reference name, name.length)

/-- The segments of a template whose first `skip` characters belong to one already read. -/
def segmentsFrom : Nat → Text → List Segment
  | _, [] => []
  | skip + 1, _ :: rest => segmentsFrom skip rest
  | 0, c :: rest =>
      if c = '$' then
        let (segment, length) := dollarAt rest
        segment :: segmentsFrom length rest
      else .char c :: segmentsFrom 0 rest

/-- The segments of a template. -/
def segments (template : Text) : List Segment :=
  segmentsFrom 0 template

/-- The number that a reference gives: digits, which a plus sign may precede. -/
def groupNumber? (name : Text) : Option Nat :=
  let digits := if name.head? = some '+' then name.drop 1 else name
  if digits.isEmpty || !digits.all Char.isDigit then none
  else some (digits.foldl (fun value c => value * 10 + (c.toNat - '0'.toNat)) 0)

/-- What a reference stands for in a match: the text of the group with that number or that
name, and nothing if there is no such group or it took no part. -/
def resolve (names : List (Text × Nat)) (found : Pattern.Match) (name : Text) : Text :=
  let index := match groupNumber? name with
    | some index => some index
    | none => names.lookup name
  (index.bind found.group?).getD []

/-- One segment, filled in for a match. -/
def Segment.fill (names : List (Text × Nat)) (found : Pattern.Match) : Segment → Text
  | .char c => [c]
  | .reference name => resolve names found name

/-- The template filled in for a match. -/
def expand (names : List (Text × Nat)) (template : Text) (found : Pattern.Match) : Text :=
  (segments template).flatMap (Segment.fill names found)

/-- The template for a text that is to appear as it stands. -/
def escape (text : Text) : Text :=
  text.flatMap fun c => if c = '$' then ['$', '$'] else [c]

end CrossShade.Template

namespace CrossShade.Pattern

/-- The text with every match replaced by the template filled in for it. -/
def replaceAll (pattern : Pattern) (template text : Text) : Text :=
  pattern.regex.replaceAll (Template.expand pattern.names template) text

end CrossShade.Pattern
