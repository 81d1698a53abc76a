import CrossShade.Conversion
import CrossShade.Host
import CrossShade.Plan

/-!
Conversions of files, one by one or many in a row. A finished conversion is handed to a
sink, which may refuse it. A batch goes on after a failure and reports, in order, what
succeeded and what did not.
-/

namespace CrossShade.Batch

/-- A conversion that is delivered: which file, where to, and for which stage. -/
structure Delivery where
  input : Text
  output : Text
  stage : Stage
deriving DecidableEq, Repr

/-- A file that was not converted. -/
structure Failure where
  path : Text
  fault : Fault
deriving DecidableEq, Repr

/-- What a batch came to. -/
structure Report where
  succeeded : List Delivery
  failed : List Failure
deriving DecidableEq, Repr

namespace Report

/-- How many files the report is on. -/
def total (report : Report) : Nat :=
  report.succeeded.length + report.failed.length

/-- Whether no file failed. -/
def isSuccess (report : Report) : Bool :=
  report.failed.isEmpty

/-- Put the outcome for one more file before the others. -/
def cons (report : Report) (input : Text) : Except Fault Delivery → Report
  | .ok delivery => { report with succeeded := delivery :: report.succeeded }
  | .error fault => { report with failed := ⟨input, fault⟩ :: report.failed }

/-- The report on outcomes by input. -/
def ofOutcomes (outcomes : List (Text × Except Fault Delivery)) : Report :=
  outcomes.foldr (fun (input, outcome) report => report.cons input outcome) ⟨[], []⟩

end Report

variable {m : Type → Type} [Monad m]

/-- Where generated text goes. -/
abbrev Sink (m : Type → Type) := Delivery → Text → m (Except Fault Unit)

/-- Read a source file as text. -/
def readSource (host : Host m) (path : Text) : m (Except Fault Text) := do
  match ← host.readFile path with
  | .error cause => return .error (.file path cause)
  | .ok bytes =>
      match Utf8.decode bytes with
      | .ok text => return .ok text
      | .error cause => return .error (.notText path cause)

/-- The sink that writes each text to its output path. -/
def fileSink (host : Host m) : Sink m := fun delivery text => do
  match ← host.writeFile delivery.output (Utf8.encode text) with
  | .error cause => return .error (.file delivery.output cause)
  | .ok () =>
      host.note (Journal.info ("Translated ".toList ++ delivery.stage.label
        ++ " shader to file: ".toList ++ delivery.output))
      return .ok ()

/-- Convert one file and hand the result to the sink. -/
def convertInto (host : Host m) (settings : Settings) (sink : Sink m) (delivery : Delivery) :
    m (Except Fault Delivery) := do
  host.note (Journal.debug ("Loading file: ".toList ++ delivery.input))
  match ← readSource host delivery.input with
  | .error fault => return .error fault
  | .ok source =>
      host.noteAll (Conversion.notes settings delivery.stage source)
      match Conversion.convert settings delivery.stage source with
      | .error fault => return .error fault
      | .ok text =>
          match ← sink delivery text with
          | .error fault => return .error fault
          | .ok () => return .ok delivery

/-- Convert one file of a batch, from its plan to the sink's answer. -/
def convertInput (host : Host m) (settings : Settings) (stage : Option Stage) (sink : Sink m)
    (input : Text) : m (Text × Except Fault Delivery) := do
  host.note (Journal.debug ("Processing file: ".toList ++ input))
  let outcome ← match Plan.make input stage with
    | .error fault => pure (.error fault)
    | .ok plan => convertInto host settings sink ⟨input, plan.output, plan.stage⟩
  match outcome with
  | .error fault => host.note (Journal.error (input ++ ": ".toList ++ fault.message))
  | .ok _ => pure ()
  return (input, outcome)

/-- Convert files in order into a sink. -/
def runInto (host : Host m) (settings : Settings) (stage : Option Stage) (sink : Sink m)
    (inputs : List Text) : m Report := do
  host.note (Journal.info ("Translating ".toList ++ Text.ofNat inputs.length ++ " files".toList))
  let outcomes ← inputs.mapM (convertInput host settings stage sink)
  let report := Report.ofOutcomes outcomes
  host.note (Journal.info ("Translation complete: ".toList ++ Text.ofNat report.succeeded.length
    ++ " succeeded, ".toList ++ Text.ofNat report.failed.length ++ " failed".toList))
  return report

/-- Convert one file and write the result to its output path. -/
def convertFile (host : Host m) (settings : Settings) (delivery : Delivery) :
    m (Except Fault Delivery) :=
  convertInto host settings (fileSink host) delivery

/-- Convert files in order, each next to its input. -/
def run (host : Host m) (settings : Settings) (stage : Option Stage) (inputs : List Text) :
    m Report :=
  runInto host settings stage (fileSink host) inputs

/-! ### A sink that keeps what it gets -/

/-- What a collecting sink has seen: how often it was called, and what it took. -/
structure Collection where
  calls : Nat := 0
  taken : List (Delivery × Text) := []
deriving DecidableEq, Repr

/-- The sink that keeps what it gets, unless `refuse` has a fault for the number of the
call. -/
def collector (refuse : Nat → Option Fault) : Sink (StateT Collection m) := fun delivery text => do
  let collection ← get
  match refuse collection.calls with
  | some fault =>
      set { collection with calls := collection.calls + 1 }
      return .error fault
  | none =>
      set (Collection.mk (collection.calls + 1) (collection.taken ++ [(delivery, text)]))
      return .ok ()

/-- Convert files in order into a collecting sink. -/
def collect (host : Host m) (settings : Settings) (stage : Option Stage)
    (refuse : Nat → Option Fault) (inputs : List Text) :
    m (Report × List (Delivery × Text)) := do
  let (report, collection) ←
    (runInto (host.lift Collection) settings stage (collector refuse) inputs).run {}
  return (report, collection.taken)

end CrossShade.Batch
