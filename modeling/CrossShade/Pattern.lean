import CrossShade.Pattern.Lexeme
import CrossShade.Pattern.Match
import CrossShade.Pattern.Weight

/-!
Patterns from their written form. The lexemes are taken one at a time: a group that opens
sets the reading of the group around it aside, and one that closes becomes an item of it.
Groups are numbered by their opening marks, from one.
-/

namespace CrossShade

/-- A pattern: as it was written, as it is matched, and the numbers of its named groups. -/
structure Pattern where
  source : Text
  regex : Pattern.Regex
  names : List (Text × Nat)
deriving DecidableEq, Repr

namespace Pattern

/-- The flags in force at a place of a pattern. -/
structure Flags where
  ignoreCase : Bool := false
  multiLine : Bool := false
  dotAll : Bool := false
  swapGreed : Bool := false
deriving DecidableEq, Repr

/-- Switch one flag. -/
def Flags.put (flags : Flags) : Flag × Bool → Flags
  | (.ignoreCase, state) => { flags with ignoreCase := state }
  | (.multiLine, state) => { flags with multiLine := state }
  | (.dotAll, state) => { flags with dotAll := state }
  | (.swapGreed, state) => { flags with swapGreed := state }

/-- Something in a row of a pattern: what it matches, how deep it is nested, and whether it
can be repeated. -/
structure Item where
  regex : Regex
  height : Nat
  repeatable : Bool
deriving DecidableEq, Repr

/-- How deep a row of things is nested, of which each has the given height: two or more
things in a row are one level above the highest of them. -/
def rowHeight (heights : List Nat) : Nat :=
  match heights with
  | [] => 0
  | [height] => height
  | heights => heights.foldl max 0 + 1

/-- A group that is being read: its number if it is remembered, its flags, and its rows of
items, which are its alternatives. Both the rows and the items of the current row are kept
last first. -/
structure Scope where
  index : Option Nat
  flags : Flags
  rows : List (List Item)
  items : List Item
deriving DecidableEq, Repr

namespace Scope

/-- A group of which nothing is read yet. -/
def start (index : Option Nat) (flags : Flags) : Scope :=
  ⟨index, flags, [], []⟩

/-- Put an item behind those read so far. -/
def push (scope : Scope) (item : Item) : Scope :=
  { scope with items := item :: scope.items }

/-- Put something that is not nested behind the items read so far. -/
def pushFlat (scope : Scope) (regex : Regex) : Scope :=
  scope.push ⟨regex, 0, true⟩

/-- Begin another alternative. -/
def divide (scope : Scope) : Scope :=
  { scope with rows := scope.items.reverse :: scope.rows, items := [] }

/-- The group as an item of the group around it. -/
def finish (scope : Scope) : Item :=
  let rows := scope.divide.rows.reverse
  let body := .alternatives (rows.map (·.map Item.regex))
  let height := rowHeight (rows.map fun row => rowHeight (row.map Item.height))
  ⟨match scope.index with
    | none => body
    | some index => .group index body, height + 1, true⟩

/-- A set of characters under the group's flags. -/
def chars (scope : Scope) (chars : CharSet) : Regex :=
  .set (if scope.flags.ignoreCase then chars.ignoreCase else chars)

end Scope

/-- A pattern that is being read: the innermost open group, those around it, how many
groups are numbered, and the named ones. -/
structure Builder where
  scope : Scope
  outer : List Scope
  groups : Nat
  names : List (Text × Nat)
deriving DecidableEq, Repr

namespace Builder

/-- A pattern of which nothing is read yet. -/
def start : Builder :=
  ⟨.start none {}, [], 0, []⟩

/-- Put something that is not nested into the innermost group. -/
def push (builder : Builder) (regex : Regex) : Builder :=
  { builder with scope := builder.scope.pushFlat regex }

/-- Open a group inside the innermost one; it begins with the flags that hold there. -/
def descend (builder : Builder) (index : Option Nat) (change : FlagChange) : Builder :=
  { builder with
    scope := .start index (change.foldl Flags.put builder.scope.flags)
    outer := builder.scope :: builder.outer }

/-- Take one more lexeme. -/
def step (builder : Builder) : Lexeme → Except Fault Builder
  | .char c => .ok (builder.push (builder.scope.chars (.single c)))
  | .set chars => .ok (builder.push (builder.scope.chars chars))
  | .dot => .ok (builder.push (.set (if builder.scope.flags.dotAll then .all else .except '\n')))
  | .caret =>
      .ok (builder.push (.anchor (if builder.scope.flags.multiLine then .lineStart else .textStart)))
  | .dollar =>
      .ok (builder.push (.anchor (if builder.scope.flags.multiLine then .lineEnd else .textEnd)))
  | .anchor place => .ok (builder.push (.anchor place))
  | .openPlain change => .ok (builder.descend none change)
  | .openCapture name =>
      let index := builder.groups + 1
      match name with
      | none => .ok { builder.descend (some index) [] with groups := index }
      | some name =>
          if (builder.names.lookup name).isSome then .error (.repeatedGroupName name)
          else .ok { builder.descend (some index) [] with
            groups := index, names := (name, index) :: builder.names }
  | .flags change =>
      let scope := builder.scope.push ⟨.empty, 0, false⟩
      .ok { builder with scope := { scope with
        flags := change.foldl Flags.put builder.scope.flags } }
  | .close =>
      match builder.outer with
      | [] => .error .unopenedGroup
      | scope :: outer =>
          .ok { builder with scope := scope.push builder.scope.finish, outer := outer }
  | .bar => .ok { builder with scope := builder.scope.divide }
  | .times least most lazy =>
      match builder.scope.items with
      | [] => .error .nothingToRepeat
      | item :: items =>
          if item.repeatable then
            let regex := item.regex.repeated (lazy == builder.scope.flags.swapGreed) least most
            .ok { builder with scope := { builder.scope with
              items := ⟨regex, item.height + 1, true⟩ :: items } }
          else .error .nothingToRepeat

/-- How deep the parts of a pattern may be nested. -/
def heightLimit : Nat := 250

/-- The pattern, once every group is closed. It is refused if it is nested too deeply, and if
the whole of it is heavier than the limit. -/
def finish (builder : Builder) (source : Text) (limit : Option Nat) : Except Fault Pattern :=
  match builder.outer with
  | _ :: _ => .error .unclosedGroup
  | [] =>
      let whole := builder.scope.finish
      if heightLimit < whole.height - 1 then .error .tooDeep
      else if whole.regex.isTooHeavy limit then .error .tooHeavy
      else .ok ⟨source, whole.regex, builder.names⟩

end Builder

/-- Read a pattern, within a limit on its weight. -/
def compile (source : Text) (limit : Option Nat := some weightLimit) : Except Fault Pattern := do
  let lexemes ← lexemes source
  let builder ← lexemes.foldlM Builder.step Builder.start
  builder.finish source limit

/-- The characters with a meaning of their own in patterns. -/
def marks : List Char :=
  ['\\', '.', '+', '*', '?', '(', ')', '|', '[', ']', '{', '}', '^', '$', '#', '&', '-', '~']

/-- The pattern text that matches exactly `text`: a backslash before each mark. -/
def escape (text : Text) : Text :=
  text.flatMap fun c => if marks.contains c then ['\\', c] else [c]

end Pattern

end CrossShade
