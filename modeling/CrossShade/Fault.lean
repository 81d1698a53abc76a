import CrossShade.Path
import CrossShade.Pattern.Lexeme
import CrossShade.Text.Utf8

/-!
Everything that can go wrong between a shader file and its conversion, and the sentence
that reports it.
-/

namespace CrossShade

/-- Why a file could not be read or written. -/
inductive FileFault where
  | notFound
  | notADirectory
  | isADirectory
  | other (message : Text)
deriving DecidableEq, Repr

/-- The phrase that reports the cause. -/
def FileFault.message : FileFault → Text
  | .notFound => "No such file or directory (os error 2)".toList
  | .notADirectory => "Not a directory (os error 20)".toList
  | .isADirectory => "Is a directory (os error 21)".toList
  | .other message => message

/-- Why a conversion failed. -/
inductive Fault where
  /-- The path's extension belongs to no stage. -/
  | unsupportedExtension (path extension : Text)
  /-- No stage has the name. -/
  | unknownStage (name : Text)
  /-- The file could not be read or written. -/
  | file (path : Text) (cause : FileFault)
  /-- The file's bytes are not text. -/
  | notText (path : Text) (cause : Utf8.Fault)
  /-- A declaration has the wrong token at a place; the empty token is the end of input. -/
  | malformedDeclaration (qualifier expected found : Text)
  /-- A function header has the wrong token at a place. -/
  | unexpectedToken (expected found context : Text)
  /-- A bracket of a function is never closed. -/
  | unbalanced (function : Text) (delimiter : Char)
  /-- No function is named `main`. -/
  | missingMain
  /-- Two functions are named `main`. -/
  | duplicateMain
  /-- The pattern of a rule cannot be read. -/
  | badPattern (rule : Text) (cause : Pattern.Fault)
deriving DecidableEq, Repr

namespace Fault

/-- The fault of a path whose extension belongs to no stage. -/
def ofExtension (path : Text) : Fault :=
  .unsupportedExtension path ((Path.extension? path).getD [])

/-- A token between quotes, or the end of input. -/
def describeToken (token : Text) : Text :=
  if token.isEmpty then "end of input".toList else "'".toList ++ token ++ "'".toList

/-- The sentence that reports the fault. For a pattern it names the rule and ends with the
colon behind which the trouble with the pattern is described. -/
def message : Fault → Text
  | .unsupportedExtension path extension =>
      "Unsupported shader extension '".toList ++ extension ++ "' for ".toList ++ path
  | .unknownStage name => "Unknown shader kind: ".toList ++ name
  | .file path cause => "IO error on ".toList ++ path ++ ": ".toList ++ cause.message
  | .notText path _ => path ++ " is not valid UTF-8".toList
  | .malformedDeclaration qualifier expected found =>
      "Malformed ".toList ++ qualifier ++ " declaration: expected ".toList ++ expected
        ++ ", found ".toList ++ describeToken found
  | .unexpectedToken expected found context =>
      "Unexpected token in ".toList ++ context ++ ": expected '".toList ++ expected
        ++ "', found ".toList ++ describeToken found
  | .unbalanced function delimiter =>
      "Unbalanced '".toList ++ [delimiter] ++ "' in function '".toList ++ function ++ "'".toList
  | .missingMain => "No 'main' function found".toList
  | .duplicateMain => "More than one 'main' function defined".toList
  | .badPattern rule _ =>
      "Invalid pattern for rewrite rule '".toList ++ rule ++ "': ".toList

end Fault

/-- What is done in two parts succeeds if both succeed. -/
theorem bind_eq_ok_iff {ε α β : Type} {first : Except ε α} {next : α → Except ε β} {result : β} :
    first >>= next = .ok result ↔ ∃ value, first = .ok value ∧ next value = .ok result := by
  cases first <;> simp [bind, Except.bind]

end CrossShade
