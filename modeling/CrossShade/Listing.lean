import CrossShade.Program
import CrossShade.Settings
import CrossShade.Stage

/-!
The Cg text of a program. The globals become parameters of the entry function, bound to
semantics in the order of their declaration: samplers to texture units, varyings to texture
coordinates, and in vertex shaders one more output to the position. The other functions
stand before the entry function, and every body is edited by the rules.
-/

namespace CrossShade.Listing

/-- An attribute in the parameter list. -/
def attributeParam (declaration : Declaration) : Text :=
  declaration.type ++ ' ' :: declaration.name

/-- A uniform in the parameter list. -/
def uniformParam (declaration : Declaration) : Text :=
  "uniform ".toList ++ declaration.type ++ ' ' :: declaration.name

/-- The uniforms in the parameter list. Those of the sampler type are bound to texture
units, the first of them to the unit `nextUnit`. -/
def uniformParams (samplerType : Text) : Nat → List Declaration → List Text
  | _, [] => []
  | nextUnit, declaration :: rest =>
      if declaration.type = samplerType then
        (uniformParam declaration ++ " : TEXUNIT".toList ++ Text.ofNat nextUnit)
          :: uniformParams samplerType (nextUnit + 1) rest
      else uniformParam declaration :: uniformParams samplerType nextUnit rest

/-- A varying in the parameter list, bound to a texture coordinate. -/
def varyingParam (stage : Stage) (declaration : Declaration) (slot : Nat) : Text :=
  declaration.type ++ ' ' :: stage.varyingDirection ++ ' ' :: declaration.name
    ++ " : TEXCOORD".toList ++ Text.ofNat slot

/-- The position in the parameter list of a vertex shader. -/
def positionParams (settings : Settings) (stage : Stage) : List Text :=
  match stage with
  | .vertex =>
      ["float4 ".toList ++ stage.varyingDirection ++ ' ' :: settings.positionOutput
        ++ " : POSITION".toList]
  | .fragment => []

/-- The parameters of the entry function. -/
def params (settings : Settings) (stage : Stage) (program : Program) : List Text :=
  program.attributes.map attributeParam
    ++ uniformParams settings.samplerType 0 program.uniforms
    ++ positionParams settings stage
    ++ program.varyings.mapIdx fun slot declaration => varyingParam stage declaration slot

/-- A body, indented and edited by the rules. -/
def formatBody (settings : Settings) (body : Text) : Text :=
  settings.indent ++ Rule.applyAll settings.rules settings.indent body

/-- A body between braces on lines of their own. -/
def block (settings : Settings) (body : Text) : Text :=
  "\x7b\n".toList ++ formatBody settings body ++ "\n\x7d\n".toList

/-- A function other than the entry function. -/
def helper (settings : Settings) (function : Function) : Text :=
  function.returnType ++ ' ' :: function.name ++ " (".toList ++ function.params ++ ")\n".toList
    ++ block settings function.body ++ ['\n']

/-- The parameters one to a line, with commas between them. -/
def paramLines (indent : Text) : List Text → Text
  | [] => ['\n']
  | [param] => indent ++ param ++ ['\n']
  | param :: rest => indent ++ param ++ ",\n".toList ++ paramLines indent rest

/-- The entry function. -/
def entry (settings : Settings) (stage : Stage) (program : Program) (body : Text) : Text :=
  stage.entryType ++ " main(\n".toList ++ paramLines settings.indent (params settings stage program)
    ++ settings.indent ++ ")\n".toList ++ block settings body

/-- The first line of the text. -/
def banner (stage : Stage) : Text :=
  "// Auto-generated from GLSL ".toList ++ stage.label ++ " shader\n".toList

/-- The whole text. A program without an entry point has none. -/
def generate (settings : Settings) (stage : Stage) (program : Program) : Except Fault Text := do
  let main ← program.entryPoint
  return banner stage ++ program.helpers.flatMap (helper settings)
    ++ entry settings stage program main.body

end CrossShade.Listing
