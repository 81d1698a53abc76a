import CrossShade.Journal
import CrossShade.Volume

/-!
What a run needs from its surroundings: files, two streams to write to, and a journal. The
work is written once for any host; `World` is a host that is a value, so that a run on it is
a function from a file system to a file system.
-/

namespace CrossShade

open Utf8 (Bytes)

/-- The services of a host. -/
structure Host (m : Type → Type) where
  readFile : Text → m (Except FileFault Bytes)
  writeFile : Text → Bytes → m (Except FileFault Unit)
  print : Text → m Unit
  complain : Text → m Unit
  note : Journal.Entry → m Unit

namespace Host

variable {m : Type → Type}

/-- The host seen from a computation with a state of its own. -/
def lift [Monad m] (host : Host m) (σ : Type) : Host (StateT σ m) where
  readFile path := StateT.lift (host.readFile path)
  writeFile path contents := StateT.lift (host.writeFile path contents)
  print text := StateT.lift (host.print text)
  complain text := StateT.lift (host.complain text)
  note entry := StateT.lift (host.note entry)

/-- Keep only the notes of the levels that `keep` lets through. -/
def quiet [Monad m] (host : Host m) (keep : Journal.Level → Bool) : Host m :=
  { host with note := fun entry => if keep entry.level then host.note entry else pure () }

/-- Note several things in order. -/
def noteAll [Monad m] (host : Host m) : List Journal.Entry → m Unit
  | [] => pure ()
  | entry :: rest => do
      host.note entry
      host.noteAll rest

end Host

/-- A host as a value: the files, what was written to the two streams, and the journal. -/
structure World where
  volume : Volume
  output : Text := []
  complaints : Text := []
  journal : List Journal.Entry := []
deriving DecidableEq, Repr

/-- The services of a world. -/
def World.host : Host (StateM World) where
  readFile path := do
    let world ← get
    return world.volume.read path
  writeFile path contents := do
    let world ← get
    match world.volume.write path contents with
    | .ok volume =>
        set { world with volume }
        return .ok ()
    | .error fault => return .error fault
  print text := modify fun world => { world with output := world.output ++ text }
  complain text := modify fun world => { world with complaints := world.complaints ++ text }
  note entry := modify fun world => { world with journal := world.journal ++ [entry] }

end CrossShade
