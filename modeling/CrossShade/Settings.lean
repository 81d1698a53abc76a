import CrossShade.Rule
import CrossShade.Substitution

/-!
The settings of a conversion.
-/

namespace CrossShade

/-- What a conversion depends on besides the source and its stage. -/
structure Settings where
  substitutions : Substitution.Table
  mode : Substitution.Mode
  rules : List Rule
  /-- The type whose uniforms are bound to texture units. -/
  samplerType : Text
  indent : Text
deriving DecidableEq, Repr

namespace Settings

/-- The settings in use unless others are chosen. -/
def standard : Settings where
  substitutions := .glslToCg
  mode := .substring
  rules := Rule.standard
  samplerType := "sampler2D".toList
  indent := ['\t']

/-- Name the matrix whose products become calls of `mul`: every rule for matrix products is
replaced by one for this matrix, made within the limit. -/
def withMatrix (settings : Settings) (matrix : Text)
    (limit : Option Nat := some Pattern.weightLimit) : Except Fault Settings := do
  let rules ← settings.rules.mapM fun rule =>
    if rule.name = Rule.matrixMultiplyName then Rule.matrixMultiply matrix limit else .ok rule
  return { settings with rules }

/-- Apply one more rule, after all others. -/
def withRule (settings : Settings) (rule : Rule) : Settings :=
  { settings with rules := settings.rules ++ [rule] }

/-- The name of the position in vertex shaders. -/
def positionName : Text := "gl_Position".toList

/-- The name under which a vertex shader gives the position: the one that the substitutions
put in its place, unless they delete it. -/
def positionOutput (settings : Settings) : Text :=
  match settings.substitutions.get? positionName with
  | some target => if target.isEmpty then positionName else target
  | none => positionName

end Settings

end CrossShade
