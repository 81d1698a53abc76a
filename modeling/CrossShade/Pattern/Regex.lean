import CrossShade.Pattern.CharSet

/-!
Patterns over text and the operators they are built with. Where a pattern can match in
several ways the order of the ways matters: an alternative comes before those to its
right, a greedy repetition prefers more rounds and a lazy one fewer.
-/

namespace CrossShade.Pattern

/-- Conditions on a place in the text that take no character. -/
inductive Anchor where
  | textStart
  | textEnd
  | lineStart
  | lineEnd
  | wordEdge
  | noWordEdge
deriving DecidableEq, Repr

/-- A pattern. `span` is any number of characters of a set, and `times` is from `least` to
`most` rounds of a body, or any number from `least` on; a `group` remembers under its number
what its body matched last. -/
inductive Regex where
  | empty
  | set (chars : CharSet)
  | span (greedy : Bool) (chars : CharSet)
  | anchor (place : Anchor)
  | seq (first second : Regex)
  | alt (first second : Regex)
  | times (greedy : Bool) (least : Nat) (most : Option Nat) (body : Regex)
  | group (index : Nat) (body : Regex)
deriving DecidableEq, Repr

namespace Regex

/-- One given character. -/
def char (c : Char) : Regex := .set (.single c)

/-- The patterns one after another. -/
def concat : List Regex → Regex
  | [] => .empty
  | [regex] => regex
  | regex :: rest => .seq regex (concat rest)

/-- The first of the patterns that matches. Between sets of characters there is nothing to
choose: they are one set. -/
def choice : List Regex → Regex
  | [] => .empty
  | [regex] => regex
  | regex :: rest =>
      match regex, choice rest with
      | .set left, .set right => .set (.union left right)
      | first, second => .alt first second

/-- The parts of a pattern that stand in a row. -/
def parts : Regex → List Regex
  | .empty => []
  | .seq first second => first.parts ++ second.parts
  | regex => [regex]

/-- The parts that two rows begin with alike. -/
def sharedParts : List Regex → List Regex → List Regex
  | left :: lefts, right :: rights =>
      if left = right then left :: sharedParts lefts rights else []
  | _, _ => []

/-- The first of the rows that matches. Parts that all rows begin with are matched once, in
front of the choice, as long as no row is a single part. -/
def alternatives (rows : List (List Regex)) : Regex :=
  match rows with
  | [] => .empty
  | [row] => concat row
  | first :: others =>
      let firstParts := first.flatMap parts
      let otherParts := others.map (·.flatMap parts)
      let shared := otherParts.foldl sharedParts firstParts
      if shared.isEmpty || (firstParts :: otherParts).any fun row => decide (row.length < 2) then
        choice (rows.map concat)
      else
        concat (shared ++
          [choice ((firstParts :: otherParts).map fun row => concat (row.drop shared.length))])

/-- A text as it stands. -/
def literal (text : Text) : Regex := concat (text.map char)

/-- The pattern or nothing. -/
def optional (greedy : Bool) (regex : Regex) : Regex :=
  .times greedy 0 (some 1) regex

/-- Whether the pattern can match without taking a character. -/
def isNullable : Regex → Bool
  | .empty => true
  | .set _ => false
  | .span _ _ => true
  | .anchor _ => true
  | .seq first second => first.isNullable && second.isNullable
  | .alt first second => first.isNullable || second.isNullable
  | .times _ least _ body => least == 0 || body.isNullable
  | .group _ body => body.isNullable

/-- Whether the pattern never takes a character. -/
def isZeroWidth : Regex → Bool
  | .empty => true
  | .set _ => false
  | .span _ _ => false
  | .anchor _ => true
  | .seq first second => first.isZeroWidth && second.isZeroWidth
  | .alt first second => first.isZeroWidth && second.isZeroWidth
  | .times _ _ most body => most == some 0 || body.isZeroWidth
  | .group _ body => body.isZeroWidth

/-- Exactly `count` rounds. -/
def exactly (count : Nat) (regex : Regex) : Regex :=
  match count with
  | 0 => .empty
  | 1 => regex
  | count => .times true count (some count) regex

/-- Any number of rounds from `least` on. A body that can match nothing is entered once
before the choice to go on is made, so that the choice comes after a round also where the
round takes no character. -/
def atLeast (greedy : Bool) (least : Nat) (regex : Regex) : Regex :=
  match regex with
  | .set chars =>
      if least = 0 then .span greedy chars
      else .seq (exactly least (.set chars)) (.span greedy chars)
  | regex =>
      if least = 0 && regex.isNullable then optional greedy (.times greedy 1 none regex)
      else .times greedy least none regex

/-- From `least` to `most` rounds, or any number from `least` on. Where a round takes no
character further rounds add nothing to the first. -/
def repeated (greedy : Bool) (least : Nat) (most : Option Nat) (regex : Regex) : Regex :=
  if most = some 0 then .empty
  else if regex.isZeroWidth then
    if least = 0 then optional greedy regex else regex
  else
    match most with
    | none => atLeast greedy least regex
    | some most => if least = most then exactly least regex else .times greedy least (some most) regex

end Regex

end CrossShade.Pattern
