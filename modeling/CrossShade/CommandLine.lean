import CrossShade.Batch

/-!
The command line: options and files in any order, a summary at the end, and an exit status
that tells whether every file was converted.
-/

namespace CrossShade.CommandLine

/-- What a command line asks for. -/
structure Options where
  inputs : List Text
  stage : Option Stage
  toOutput : Bool
  matrix : Text
  wholeWord : Bool
  verbose : Bool
deriving DecidableEq, Repr

/-- Why a command line is rejected. -/
inductive Rejection where
  | noInput
  | emptyInput
  | unknownOption (argument : Text)
  | repeatedOption (argument : Text)
  | unwantedValue (argument : Text)
  | missingValue
  | unknownStage (name : Text)
deriving DecidableEq, Repr

/-- The options that take a value. -/
inductive Valued where
  | stage
  | matrix
deriving DecidableEq, Repr

/-- The options that are present or not. -/
inductive Switch where
  | toOutput
  | wholeWord
  | verbose
deriving DecidableEq, Repr

/-- The option with the given long name. -/
def Valued.ofName? (name : Text) : Option Valued :=
  if name = "kind".toList then some .stage
  else if name = "mvp-uniform".toList then some .matrix
  else none

/-- The switch with the given long name. -/
def Switch.ofName? (name : Text) : Option Switch :=
  if name = "stdout".toList then some .toOutput
  else if name = "whole-word".toList then some .wholeWord
  else if name = "verbose".toList then some .verbose
  else none

/-- A command line that is being read. `waiting` is the option whose value comes next, and
`filesOnly` tells that every further argument is a file. -/
structure Draft where
  inputs : List Text := []
  stage : Option Stage := none
  matrix : Option Text := none
  switches : List Switch := []
  waiting : Option Valued := none
  filesOnly : Bool := false
deriving DecidableEq, Repr

namespace Draft

/-- Take a file. An empty name is no file. -/
def addInput (draft : Draft) (path : Text) : Except Rejection Draft :=
  if path.isEmpty then .error .emptyInput
  else .ok { draft with inputs := draft.inputs ++ [path] }

/-- Give an option its value. -/
def setValue (draft : Draft) (option : Valued) (value : Text) : Except Rejection Draft :=
  match option with
  | .stage =>
      match Stage.ofName? value with
      | some stage => .ok { draft with stage := some stage, waiting := none }
      | none => .error (.unknownStage value)
  | .matrix => .ok { draft with matrix := some value, waiting := none }

/-- Whether an option that takes a value has been given. -/
def isGiven (draft : Draft) : Valued → Bool
  | .stage => draft.stage.isSome
  | .matrix => draft.matrix.isSome

/-- Turn a switch on, which may be done once. -/
def turnOn (draft : Draft) (argument : Text) (switch : Switch) : Except Rejection Draft :=
  if draft.switches.contains switch then .error (.repeatedOption argument)
  else .ok { draft with switches := switch :: draft.switches }

/-- Take a long option, with the value behind its equals sign if it has one. -/
def takeLong (draft : Draft) (argument name : Text) (value : Option Text) :
    Except Rejection Draft :=
  match Valued.ofName? name with
  | some option =>
      if draft.isGiven option then .error (.repeatedOption argument)
      else match value with
        | some value => draft.setValue option value
        | none => .ok { draft with waiting := some option }
  | none =>
      match Switch.ofName? name with
      | none => .error (.unknownOption argument)
      | some switch =>
          match value with
          | some _ => .error (.unwantedValue argument)
          | none => draft.turnOn argument switch

/-- Take short options written together. -/
def takeShort (draft : Draft) (argument : Text) : Text → Except Rejection Draft
  | [] => .ok draft
  | c :: rest => do
      if c = 'v' then takeShort (← draft.turnOn argument .verbose) argument rest
      else throw (.unknownOption argument)

/-- Take one more argument. An argument that starts with a hyphen is an option, unless it is
nothing but the hyphen, and is never the value of another option. -/
def step (draft : Draft) (argument : Text) : Except Rejection Draft :=
  if draft.filesOnly then draft.addInput argument
  else
    match draft.waiting, argument with
    | some _, '-' :: _ :: _ => .error .missingValue
    | some option, value => draft.setValue option value
    | none, ['-', '-'] => .ok { draft with filesOnly := true }
    | none, '-' :: '-' :: long =>
        let name := long.takeWhile (· != '=')
        let value := if long.contains '=' then some (long.drop (name.length + 1)) else none
        draft.takeLong argument name value
    | none, '-' :: short@(_ :: _) => draft.takeShort argument short
    | none, path => draft.addInput path

/-- The options, once all arguments are taken. -/
def finish (draft : Draft) : Except Rejection Options :=
  if draft.waiting.isSome then .error .missingValue
  else if draft.inputs.isEmpty then .error .noInput
  else .ok {
    inputs := draft.inputs
    stage := draft.stage
    toOutput := draft.switches.contains .toOutput
    matrix := draft.matrix.getD "u_mvp".toList
    wholeWord := draft.switches.contains .wholeWord
    verbose := draft.switches.contains .verbose }

end Draft

/-- Read the arguments of a command line. -/
def parse (arguments : List Text) : Except Rejection Options := do
  let draft ← arguments.foldlM Draft.step {}
  draft.finish

/-- The settings that the options ask for. -/
def Options.settings (options : Options) : Except Fault Settings :=
  { Settings.standard with
    mode := if options.wholeWord then .wholeWord else .substring }.withMatrix options.matrix

variable {m : Type → Type} [Monad m]

/-- The sink that prints each text behind a line that names its input. -/
def printSink (host : Host m) : Batch.Sink m := fun delivery text => do
  host.print ("// ---- ".toList ++ delivery.input ++ " (".toList ++ delivery.stage.label
    ++ ") ----\n".toList)
  host.print text
  return .ok ()

/-- The summary of a report, with a line for each failure. -/
def summary (report : Batch.Report) : Text :=
  "\nConversion complete: ".toList ++ Text.ofNat report.succeeded.length
    ++ " succeeded, ".toList ++ Text.ofNat report.failed.length ++ " failed\n".toList
    ++ report.failed.flatMap fun failure =>
      "  X ".toList ++ failure.path ++ ": ".toList ++ failure.fault.message ++ ['\n']

/-- The note on the rules in use. -/
def rulesNote (settings : Settings) : Journal.Entry :=
  Journal.debug ("Rewrite rules: ".toList
    ++ Text.join ", ".toList (settings.rules.map Rule.render))

/-- What is said of a command line that is rejected. -/
def usage : Text :=
  "usage: [--kind NAME] [--stdout] [--mvp-uniform NAME] [--whole-word] [-v] FILE...\n".toList

/-- Do what the options ask for; the exit status tells whether every file was converted. -/
def execute (host : Host m) (options : Options) : m Nat := do
  match options.settings with
  | .error fault =>
      host.complain ("Error: ".toList ++ fault.message ++ ['\n'])
      return 2
  | .ok settings =>
      host.note (rulesNote settings)
      let report ←
        if options.toOutput then
          Batch.runInto host settings options.stage (printSink host) options.inputs
        else Batch.run host settings options.stage options.inputs
      host.complain (summary report)
      return if report.isSuccess then 0 else 1

/-- Run a command line. Notes below the level of information are made only if asked for, by
an option or, with `debugging`, from outside. -/
def run (host : Host m) (debugging : Bool) (arguments : List Text) : m Nat := do
  match parse arguments with
  | .error _ =>
      host.complain usage
      return 2
  | .ok options =>
      execute (host.quiet fun level => level != .debug || options.verbose || debugging) options

end CrossShade.CommandLine
