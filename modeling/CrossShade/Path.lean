import CrossShade.Text

/-!
File paths as text. Slashes divide a path into components; empty components and single
dots mean nothing, so trailing slashes and dots are passed over when the file name is
looked for. The root and a last component of two dots have no file name.
-/

namespace CrossShade.Path

/-- A path written backwards, without the slashes and single dots at its end. -/
def dropTrailing : Text → Text
  | '/' :: rest => dropTrailing rest
  | '.' :: '/' :: rest => dropTrailing rest
  | ['.'] => []
  | reversed => reversed

/-- The last component of a path and what stands before it, as written. -/
def split (path : Text) : Text × Text :=
  let reversed := dropTrailing path.reverse
  ((reversed.dropWhile (· != '/')).reverse, (reversed.takeWhile (· != '/')).reverse)

/-- The file name of a path. -/
def fileName? (path : Text) : Option Text :=
  let name := (split path).2
  if name = [] ∨ name = "..".toList then none else some name

/-- A file name as stem and extension. The extension starts behind the last dot, unless
that dot is the first character. -/
def splitName (name : Text) : Text × Option Text :=
  let reversed := name.reverse
  match reversed.dropWhile (· != '.') with
  | '.' :: stem@(_ :: _) => (stem.reverse, some (reversed.takeWhile (· != '.')).reverse)
  | _ => (name, none)

/-- The extension of the file name. -/
def extension? (path : Text) : Option Text :=
  (fileName? path).bind fun name => (splitName name).2

/-- Take `count` bytes off a text written backwards. A character that the cut goes through
stays. -/
def dropBytes : Nat → Text → Text
  | _, [] => []
  | count, c :: rest =>
      if c.utf8Size ≤ count then dropBytes (count - c.utf8Size) rest else c :: rest

/-- Put the extension in place of everything behind the stem of the file name. A path
without a file name stays as it is. -/
def setExtension (path extension : Text) : Text :=
  match fileName? path with
  | none => path
  | some name =>
      (split path).1 ++ (splitName name).1
        ++ (if extension.isEmpty then [] else '.' :: extension)

/-- The path with another extension. As many bytes as the old extension has are first taken
off the end of the whole path; where slashes or dots trail behind the name they go first. -/
def withExtension (path extension : Text) : Text :=
  let old := Text.byteLength ((extension? path).getD [])
  setExtension (dropBytes old path.reverse).reverse extension

/-- The components of a path, empty ones included. -/
def components (path : Text) : List Text :=
  path.splitOn '/'

end CrossShade.Path
