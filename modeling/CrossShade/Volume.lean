import CrossShade.Fault

/-!
A file system as a value: directories and files under one root, with a working directory
that relative paths start from. There are no links and no permissions.

A path is walked component by component, and everything it passes through has to be a
directory.
-/

namespace CrossShade

open Utf8 (Bytes)

/-- A place in a file system: the names from it up to the root, innermost first. -/
abbrev Location := List Text

/-- What there is at a place. -/
inductive Node where
  | directory
  | file (contents : Bytes)
deriving DecidableEq, Repr

/-- A file system. The root is a directory and not among the nodes. -/
structure Volume where
  current : Location
  nodes : List (Location × Node)
deriving DecidableEq, Repr

namespace Volume

/-- What there is at a place, if anything. -/
def node? (volume : Volume) (place : Location) : Option Node :=
  if place.isEmpty then some .directory else volume.nodes.lookup place

/-- The file system with `node` at a place. -/
def set (volume : Volume) (place : Location) (node : Node) : Volume :=
  { volume with nodes := (place, node) :: volume.nodes.filter (·.1 != place) }

/-- Where a component leads from a place. -/
def step (place : Location) (component : Text) : Location :=
  if component = [] ∨ component = ".".toList then place
  else if component = "..".toList then place.tail
  else component :: place

/-- Fail unless the place is a directory. -/
def enter (volume : Volume) (place : Location) : Except FileFault Unit :=
  match volume.node? place with
  | some .directory => .ok ()
  | some (.file _) => .error .notADirectory
  | none => .error .notFound

/-- Follow components from a place. -/
def walk (volume : Volume) : Location → List Text → Except FileFault Location
  | place, [] => .ok place
  | place, component :: rest => do
      volume.enter place
      volume.walk (step place component) rest

/-- The place that a path starts from. -/
def start (volume : Volume) (path : Text) : Location :=
  if path.head? = some '/' then [] else volume.current

/-- Read a file. -/
def read (volume : Volume) (path : Text) : Except FileFault Bytes :=
  if path.isEmpty then .error .notFound
  else do
    let place ← volume.walk (volume.start path) (Path.components path)
    match volume.node? place with
    | some (.file contents) => .ok contents
    | some .directory => .error .isADirectory
    | none => .error .notFound

/-- Write a file, in place of the one that was there. A path with a slash at its end, or
with dots for its last component, can only mean a directory. -/
def write (volume : Volume) (path : Text) (contents : Bytes) : Except FileFault Volume :=
  if path.isEmpty then .error .notFound
  else
    match (Path.components path).reverse.dropWhile List.isEmpty with
    | [] => .error .isADirectory
    | last :: before => do
        let parent ← volume.walk (volume.start path) before.reverse
        volume.enter parent
        if path.getLast? = some '/' ∨ last = ".".toList ∨ last = "..".toList then
          .error .isADirectory
        else
          match volume.node? (last :: parent) with
          | some .directory => .error .isADirectory
          | _ => .ok (volume.set (last :: parent) (.file contents))

/-! ### Setting up and looking around -/

/-- The place of a path, whether there is anything or not. -/
def place (volume : Volume) (path : Text) : Location :=
  (Path.components path).foldl step (volume.start path)

/-- Make a directory at a place and at every place around it. -/
def makeDirectories (volume : Volume) : Location → Volume
  | [] => volume
  | name :: parent => (volume.makeDirectories parent).set (name :: parent) .directory

/-- Make a directory, and those around it. -/
def makeDirectory (volume : Volume) (path : Text) : Volume :=
  volume.makeDirectories (volume.place path)

/-- Put a file at a path, making the directories around it. -/
def put (volume : Volume) (path : Text) (contents : Bytes) : Volume :=
  let place := volume.place path
  (volume.makeDirectories place.tail).set place (.file contents)

/-- Take away what there is at a path. -/
def remove (volume : Volume) (path : Text) : Volume :=
  let place := volume.place path
  { volume with nodes := volume.nodes.filter (·.1 != place) }

/-- The volume that has nothing but an empty working directory. -/
def empty (current : Location) : Volume :=
  makeDirectories ⟨current, []⟩ current

/-- The path of a place relative to the working directory, if it is below it. -/
def relative? (volume : Volume) (place : Location) : Option Text :=
  let below := place.take (place.length - volume.current.length)
  if below ≠ [] ∧ place = below ++ volume.current then some (Text.join ['/'] below.reverse)
  else none

/-- The path of a place as a list shows it: the path of a directory ends in a slash. -/
def shown? (volume : Volume) (place : Location) (node : Node) : Option Text :=
  match node with
  | .directory => (volume.relative? place).map (· ++ ['/'])
  | .file _ => volume.relative? place

/-- Everything below the working directory, sorted by the path that is shown. -/
def list (volume : Volume) : List (Text × Node) :=
  (volume.nodes.filterMap fun (place, node) => (volume.shown? place node).map (·, node)).mergeSort
    fun left right => !right.1.lex left.1

end Volume

end CrossShade
