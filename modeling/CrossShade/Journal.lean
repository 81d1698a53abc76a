import CrossShade.Text

/-!
The journal of a run: what it did, message by message, for whoever looks on.
-/

namespace CrossShade.Journal

/-- How much a message matters. -/
inductive Level where
  | debug
  | info
  | error
deriving DecidableEq, Repr

/-- The level as it is written before a message. -/
def Level.label : Level → Text
  | .debug => "DEBUG".toList
  | .info => "INFO".toList
  | .error => "ERROR".toList

/-- One message. -/
structure Entry where
  level : Level
  message : Text
deriving DecidableEq, Repr

/-- A message for those who look for trouble. -/
def debug (message : Text) : Entry := ⟨.debug, message⟩

/-- A message on the progress of a run. -/
def info (message : Text) : Entry := ⟨.info, message⟩

/-- A message on a failure. -/
def error (message : Text) : Entry := ⟨.error, message⟩

/-- The message behind its level. -/
def Entry.render (entry : Entry) : Text :=
  entry.level.label ++ ' ' :: entry.message

end CrossShade.Journal
