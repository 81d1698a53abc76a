import CrossShade.Pattern.Regex

/-!
The weight of a pattern: what it takes to lay it out in full, with every round of a counted
repetition written out. A pattern is laid out twice, forwards to find matches and backwards
to find the start of a match from its end, and it is too heavy to use if either layout is
heavier than a limit.

The unit is a byte. A state of the laid-out pattern takes 32 of them, a way out of a choice
four more, and a range of characters eight. Characters are laid out by their UTF-8 bytes, so
that a single character is as heavy as its bytes are many. It makes the large classes of
Unicode heavy, above all backwards, where their characters share less: the weights of these
classes are given, and those of other ranges beyond ASCII, and of sets composed from them,
are estimates. What alternatives have in common is counted in each of them.
-/

namespace CrossShade.Pattern

/-- The ways in which a pattern is laid out. Groups are remembered forwards only. -/
inductive Direction where
  | forwards
  | backwards
deriving DecidableEq, Repr

/-- One of two values, by the direction. -/
def Direction.pick (direction : Direction) (forwards backwards : Nat) : Nat :=
  match direction with
  | .forwards => forwards
  | .backwards => backwards

/-- The weight of one state. -/
def stateWeight : Nat := 32

/-- The weight of a choice between two ways. -/
def choiceWeight : Nat := stateWeight + 8

/-- Whether a set has ASCII characters only. -/
def CharSet.isAscii : CharSet → Bool
  | .range _ high => decide (high.toNat < 0x80)
  | .anyCase set => set.isAscii
  | .union left right => left.isAscii && right.isAscii
  | .inter left right => left.isAscii || right.isAscii
  | _ => false

/-- How many ranges are written in a set. -/
def CharSet.rangeCount : CharSet → Nat
  | .anyCase set => 2 * set.rangeCount
  | .union left right => left.rangeCount + right.rangeCount
  | .inter left right => left.rangeCount + right.rangeCount
  | .compl set => set.rangeCount
  | _ => 1

/-- The weight of a set that goes beyond ASCII, apart from its two ends. -/
def CharSet.wideWeight (direction : Direction) : CharSet → Nat
  | .all => direction.pick 352 900
  | .word => direction.pick 20528 49772
  | .digit => direction.pick 1520 5052
  | .blank => direction.pick 360 616
  | .compl .word => direction.pick 19944 46356
  | .compl .digit => direction.pick 2400 12656
  | .compl .blank => direction.pick 760 1860
  | .range _ high => if high.toNat < 0x80 then direction.pick 8 36 else direction.pick 96 100
  | .anyCase set => 2 * set.wideWeight direction
  | .union left right => left.wideWeight direction + right.wideWeight direction
  | .inter left right => left.wideWeight direction + right.wideWeight direction
  | .compl set => direction.pick 352 900 + set.wideWeight direction

/-- The weight of a set. A single character is as heavy as its bytes. -/
def CharSet.weight (direction : Direction) (set : CharSet) : Nat :=
  match set with
  | .range low high =>
      if low = high then stateWeight * low.utf8Size
      else if high.toNat < 0x80 then 2 * stateWeight + 8
      else 2 * stateWeight + direction.pick 96 100
  | set =>
      if set.isAscii then 2 * stateWeight + 8 * set.rangeCount
      else 2 * stateWeight + set.wideWeight direction

/-- The weight of a pattern. -/
def Regex.weight (direction : Direction) : Regex → Nat
  | .empty => stateWeight
  | .set chars => chars.weight direction
  | .span _ chars => choiceWeight + chars.weight direction
  | .anchor _ => stateWeight
  | .seq first second => first.weight direction + second.weight direction
  | .alt first second =>
      first.weight direction + second.weight direction
        + (match second with
          | .alt _ _ => 4
          | _ => choiceWeight + stateWeight)
  | .times _ least none body =>
      match least with
      | 0 => choiceWeight + body.weight direction
      | least => least * body.weight direction + choiceWeight
  | .times _ least (some most) body =>
      -- Where there are no rounds that must be taken a state stands for them, unless a single
      -- round is all there is.
      (if least = 0 && most != 1 then stateWeight else least * body.weight direction)
        + (if least = most then 0
          else stateWeight + (most - least) * (choiceWeight + body.weight direction))
  | .group _ body => direction.pick (2 * stateWeight) 0 + body.weight direction

/-- What every pattern weighs before its first part: the search for its start and the end of
the match, and forwards the whole match as a group. -/
def frameWeight (direction : Direction) : Nat :=
  4 * stateWeight + 16 + direction.pick (2 * stateWeight) 0

/-- The weight of a pattern as it is laid out in the direction in which it is heavier. -/
def Regex.fullWeight (regex : Regex) : Nat :=
  max (frameWeight .forwards + regex.weight .forwards)
    (frameWeight .backwards + regex.weight .backwards)

/-- The heaviest pattern that is accepted unless another limit is set: ten mebibytes. -/
def weightLimit : Nat := 10 * 1024 * 1024

/-- Whether a pattern is heavier than the limit, if there is one. -/
def Regex.isTooHeavy (limit : Option Nat) (regex : Regex) : Bool :=
  limit.any (· < regex.fullWeight)

end CrossShade.Pattern
