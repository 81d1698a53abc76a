import CrossShade.Fault
import CrossShade.Template
import CrossShade.Text.Quoted
import CrossShade.Text.Replace

/-!
Rules that edit the bodies of functions. A rule replaces every match of a pattern by a
template, in which the indent mark stands for the indentation in use; the indentation
itself is never read as a reference. Rules are applied in order, each to the result of
those before it.
-/

namespace CrossShade

/-- A rule: its name, its pattern and the template that replaces a match. -/
structure Rule where
  name : Text
  pattern : Pattern
  replacement : Text
deriving DecidableEq, Repr

namespace Rule

/-- The mark in a template that stands for the indentation. -/
def indentMark : Text := "\x7bindent\x7d".toList

/-- The name of the rule that makes assignments returns. -/
def assignToReturnName : Text := "assign-to-return".toList

/-- The name of the rule that breaks lines. -/
def breakStatementsName : Text := "break-statements".toList

/-- The name of the rules for matrix products. -/
def matrixMultiplyName : Text := "matrix-multiply".toList

/-- The rule with the given name, pattern and template. The pattern is read within a limit on
its weight. -/
def make (name source replacement : Text) (limit : Option Nat := some Pattern.weightLimit) :
    Except Fault Rule :=
  match Pattern.compile source limit with
  | .ok pattern => .ok ⟨name, pattern, replacement⟩
  | .error cause => .error (.badPattern name cause)

/-- Assignments to `target` become returns; comparisons stay. -/
def assignToReturn (target : Text) (limit : Option Nat := some Pattern.weightLimit) :
    Except Fault Rule :=
  make assignToReturnName ("\\b".toList ++ Pattern.escape target ++ " *= *([^=])".toList)
    "return $\x7b1\x7d".toList limit

/-- Each statement ends its line. -/
def breakStatements : Except Fault Rule :=
  make breakStatementsName "; *".toList (";\n".toList ++ indentMark)

/-- A product with `matrix` on the left becomes a call of `mul`, up to the end of the
statement. -/
def matrixMultiply (matrix : Text) (limit : Option Nat := some Pattern.weightLimit) :
    Except Fault Rule :=
  make matrixMultiplyName
    ("\\b(".toList ++ Pattern.escape matrix ++ ") *\\* *(.*?);".toList)
    "mul( $\x7b2\x7d, $\x7b1\x7d );".toList limit

/-- The rules in use unless others are chosen. All of them are well formed, so none is left
out here. -/
def standard : List Rule :=
  [assignToReturn "gl_FragColor".toList, breakStatements, matrixMultiply "u_mvp".toList].filterMap
    Except.toOption

/-- The template of the rule for a given indentation. -/
def template (rule : Rule) (indent : Text) : Text :=
  Text.replaceAll indentMark (Template.escape indent) rule.replacement

/-- Edit a body by the rule. -/
def apply (rule : Rule) (indent body : Text) : Text :=
  rule.pattern.replaceAll (rule.template indent) body

/-- Edit a body by rules, one after another. -/
def applyAll (rules : List Rule) (indent body : Text) : Text :=
  rules.foldl (fun text rule => rule.apply indent text) body

/-- Whether two rules are written alike. -/
def alike (left right : Rule) : Bool :=
  left.name == right.name && left.pattern.source == right.pattern.source
    && left.replacement == right.replacement

/-- The rule in a report: name, pattern and quoted template. -/
def render (rule : Rule) : Text :=
  rule.name ++ " (/".toList ++ rule.pattern.source ++ "/ -> ".toList
    ++ Text.quoted rule.replacement ++ ")".toList

end Rule

end CrossShade
