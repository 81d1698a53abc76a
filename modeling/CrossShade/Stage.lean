import CrossShade.Text

/-!
The two stages of the pipeline that shaders are written for, and what each stage fixes:
the file extensions, the direction of the varyings and the type of the entry function.
-/

namespace CrossShade

/-- The pipeline stage that a shader belongs to. -/
inductive Stage where
  | vertex
  | fragment
deriving DecidableEq, Repr

namespace Stage

/-- The stage's name in banners and reports. -/
def label : Stage → Text
  | .vertex => "vertex".toList
  | .fragment => "fragment".toList

/-- The extension of source files, without the dot. -/
def inputExtension : Stage → Text
  | .vertex => "vp".toList
  | .fragment => "fp".toList

/-- The extension of generated files, without the dot. -/
def outputExtension : Stage → Text
  | .vertex => "cgvp".toList
  | .fragment => "cgfp".toList

/-- The direction in which varyings pass through the entry function. -/
def varyingDirection : Stage → Text
  | .vertex => "out".toList
  | .fragment => "in".toList

/-- The return type of the generated entry function. -/
def entryType : Stage → Text
  | .vertex => "void".toList
  | .fragment => "float4".toList

/-- The names that users may give a stage. -/
def names : Stage → List Text
  | .vertex => ["vertex".toList, "vert".toList, "vs".toList, "vp".toList]
  | .fragment =>
      ["fragment".toList, "frag".toList, "fs".toList, "pixel".toList, "ps".toList, "fp".toList]

/-- The stage with the given name, in upper or lower case. Only ASCII letters have a lower
case among the letters of the names, so no other character needs folding. -/
def ofName? (name : Text) : Option Stage :=
  let lower := name.map Char.toLower
  if Stage.vertex.names.contains lower then some .vertex
  else if Stage.fragment.names.contains lower then some .fragment
  else none

/-- The stage whose source files have the extension. -/
def ofExtension? (extension : Text) : Option Stage :=
  if extension = Stage.vertex.inputExtension then some .vertex
  else if extension = Stage.fragment.inputExtension then some .fragment
  else none

end Stage

end CrossShade
