import CrossShade.Fault
import CrossShade.Stage

/-!
Where the conversion of a file goes, and for which stage it is made. The extension of the
file decides, unless the stage is given.
-/

namespace CrossShade

/-- The output path and the stage of a conversion. -/
structure Plan where
  output : Text
  stage : Stage
deriving DecidableEq, Repr

/-- The stage with the given name. -/
def Stage.ofName (name : Text) : Except Fault Stage :=
  match Stage.ofName? name with
  | some stage => .ok stage
  | none => .error (.unknownStage name)

/-- The stage that the path's extension selects. -/
def Stage.ofPath (path : Text) : Except Fault Stage :=
  match (Path.extension? path).bind Stage.ofExtension? with
  | some stage => .ok stage
  | none => .error (.ofExtension path)

namespace Plan

/-- The plan for a path and a stage: the stage's extension in place of the path's own. -/
def forStage (path : Text) (stage : Stage) : Plan :=
  ⟨Path.withExtension path stage.outputExtension, stage⟩

/-- The plan for a path whose extension selects the stage. -/
def ofPath (path : Text) : Except Fault Plan :=
  (Stage.ofPath path).map (forStage path)

/-- The plan for a path. With a stage given, any extension will do. -/
def make (path : Text) (stage : Option Stage) : Except Fault Plan :=
  match stage with
  | some stage => .ok (forStage path stage)
  | none => ofPath path

end Plan

end CrossShade
