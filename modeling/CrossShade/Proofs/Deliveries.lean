import CrossShade.Batch
import Mathlib.Data.List.Perm.Basic

/-!
What a batch hands to its sink and what it reports. A sink is any computation with a state of its
own beside the world of files, so a batch is run as a function from that state and a world.

* `Stateful`: monads whose computations are such functions; `Serves`: hosts that read from a
  volume within the state.
* `run_convertInput`: one file is prepared from the volume, then delivered.
* `recorded`: the sink that keeps a record of its calls and is otherwise the same.
* `Settled`: how inputs, calls and outcomes belong together, file by file.
* `runInto_accounts`: the calls that any sink gets, and the report on them.
-/

namespace CrossShade

open Journal (Entry)

/-! ### Computations on states -/

/-- A monad whose computations are functions from a state to a result and the next state. -/
structure Stateful (m : Type → Type) [Monad m] (S : Type) where
  run : {α : Type} → m α → S → α × S
  run_pure : ∀ {α : Type} (result : α) (state : S), run (pure result) state = (result, state)
  run_bind : ∀ {α β : Type} (first : m α) (next : α → m β) (state : S),
    run (first >>= next) state = run (next (run first state).1) (run first state).2

namespace Stateful

variable {m : Type → Type} [Monad m] {S : Type}

attribute [simp] run_pure run_bind

/-- Computations on a world. -/
def world : Stateful (StateM World) World where
  run action world := (action.run world).run
  run_pure _ _ := rfl
  run_bind _ _ _ := rfl

/-- Computations on a world that have a state of their own beside it. -/
def beside (σ : Type) : Stateful (StateT σ (StateM World)) (σ × World) where
  run action state :=
    let ((result, own), world) := ((action.run state.1).run state.2).run
    (result, own, world)
  run_pure _ _ := rfl
  run_bind _ _ _ := rfl

/-- Results in order, each from the state that the one before left behind. -/
theorem run_mapM_cons [LawfulMonad m] (effects : Stateful m S) {α β : Type} (action : α → m β)
    (item : α) (items : List α) (state : S) :
    effects.run ((item :: items).mapM action) state =
      ((effects.run (action item) state).1 ::
          (effects.run (items.mapM action) (effects.run (action item) state).2).1,
        (effects.run (items.mapM action) (effects.run (action item) state).2).2) := by
  rw [List.mapM_cons]
  simp only [run_bind, run_pure]

/-- A host that reads from a volume within the state and whose notes leave the volume alone. -/
structure Serves (effects : Stateful m S) (host : Host m) where
  volume : S → Volume
  noted : S → Entry → S
  run_readFile : ∀ path state,
    effects.run (host.readFile path) state = ((volume state).read path, state)
  run_note : ∀ entry state, effects.run (host.note entry) state = ((), noted state entry)
  volume_noted : ∀ entry state, volume (noted state entry) = volume state

/-- The services of a world. -/
def worldServes : world.Serves World.host where
  volume state := state.volume
  noted state entry := { state with journal := state.journal ++ [entry] }
  run_readFile _ _ := rfl
  run_note _ _ := rfl
  volume_noted _ _ := rfl

/-- The services of a world, seen from beside it. -/
def besideServes (σ : Type) : (beside σ).Serves (World.host.lift σ) where
  volume state := state.2.volume
  noted state entry := (state.1, { state.2 with journal := state.2.journal ++ [entry] })
  run_readFile _ _ := rfl
  run_note _ _ := rfl
  volume_noted _ _ := rfl

theorem run_eq_beside {σ α : Type} (action : StateT σ (StateM World) α) (own : σ) (world : World) :
    (action.run own).run world =
      ((((beside σ).run action (own, world)).1, ((beside σ).run action (own, world)).2.1),
        ((beside σ).run action (own, world)).2.2) :=
  rfl

theorem besideServes_noted {σ : Type} (state : σ × World) (entry : Entry) :
    (besideServes σ).noted state entry =
      (state.1, { state.2 with journal := state.2.journal ++ [entry] }) :=
  rfl

@[simp]
theorem besideServes_volume {σ : Type} (state : σ × World) :
    (besideServes σ).volume state = state.2.volume :=
  rfl

theorem foldl_noted_beside {σ : Type} (entries : List Entry) (state : σ × World) :
    entries.foldl (besideServes σ).noted state =
      (state.1, { state.2 with journal := state.2.journal ++ entries }) := by
  induction entries generalizing state with
  | nil => simp
  | cons entry entries ih =>
      rw [List.foldl_cons, ih]
      simp [besideServes]

namespace Serves

variable {effects : Stateful m S} {host : Host m} (serves : effects.Serves host)
include serves

theorem run_noteAll (entries : List Entry) (state : S) :
    effects.run (host.noteAll entries) state = ((), entries.foldl serves.noted state) := by
  induction entries generalizing state with
  | nil => simp [Host.noteAll]
  | cons entry entries ih => simp [Host.noteAll, serves.run_note, ih]

theorem volume_foldl_noted (entries : List Entry) (state : S) :
    serves.volume (entries.foldl serves.noted state) = serves.volume state := by
  induction entries generalizing state with
  | nil => rfl
  | cons entry entries ih => rw [List.foldl_cons, ih, serves.volume_noted]

end Serves

end Stateful

namespace Batch

/-! ### One file -/

/-- The text of a source file. -/
def sourceText (volume : Volume) (path : Text) : Except Fault Text :=
  match volume.read path with
  | .error cause => .error (.file path cause)
  | .ok bytes =>
      match Utf8.decode bytes with
      | .ok text => .ok text
      | .error cause => .error (.notText path cause)

theorem sourceText_eq_ok_iff {volume : Volume} {path text : Text} :
    sourceText volume path = .ok text ↔
      ∃ contents, volume.read path = .ok contents ∧ Utf8.decode contents = .ok text := by
  unfold sourceText
  cases volume.read path with
  | error cause => simp
  | ok contents => cases decoded : Utf8.decode contents <;> simp [decoded]

/-- A conversion before it reaches the sink: what is delivered and the text, or the fault of the
first stage that fails, of planning, reading and generating. -/
def prepare (settings : Settings) (stage : Option Stage) (volume : Volume) (input : Text) :
    Except Fault (Delivery × Text) := do
  let plan ← Plan.make input stage
  let source ← sourceText volume input
  let text ← Conversion.convert settings plan.stage source
  return (⟨input, plan.output, plan.stage⟩, text)

theorem prepare_eq_ok_iff {settings : Settings} {stage : Option Stage} {volume : Volume}
    {input text : Text} {delivery : Delivery} :
    prepare settings stage volume input = .ok (delivery, text) ↔
      delivery.input = input ∧ Plan.make input stage = .ok ⟨delivery.output, delivery.stage⟩ ∧
        ∃ source, sourceText volume input = .ok source ∧
          Conversion.convert settings delivery.stage source = .ok text := by
  simp only [prepare, bind_eq_ok_iff, pure, Except.pure, Except.ok.injEq, Prod.mk.injEq]
  constructor
  · rintro ⟨plan, planned, source, found, generated, converted, rfl, rfl⟩
    exact ⟨rfl, planned, source, found, converted⟩
  · rintro ⟨rfl, planned, source, found, converted⟩
    exact ⟨_, planned, source, found, text, converted, rfl, rfl⟩

/-- What is noted of a conversion before it reaches the sink. -/
def loadingNotes (settings : Settings) (volume : Volume) (delivery : Delivery) : List Entry :=
  Journal.debug ("Loading file: ".toList ++ delivery.input) ::
    match sourceText volume delivery.input with
    | .error _ => []
    | .ok source => Conversion.notes settings delivery.stage source

/-- What is noted of a file of a batch before it reaches the sink. -/
def notesBefore (settings : Settings) (stage : Option Stage) (volume : Volume) (input : Text) :
    List Entry :=
  Journal.debug ("Processing file: ".toList ++ input) ::
    match Plan.make input stage with
    | .error _ => []
    | .ok plan => loadingNotes settings volume ⟨input, plan.output, plan.stage⟩

/-- What is noted of a file when its outcome is known. -/
def notesAfter (input : Text) : Except Fault Delivery → List Entry
  | .error fault => [Journal.error (input ++ ": ".toList ++ fault.message)]
  | .ok _ => []

/-- What is noted when a batch begins. -/
def startNote (inputs : List Text) : Entry :=
  Journal.info ("Translating ".toList ++ Text.ofNat inputs.length ++ " files".toList)

/-- What is noted when a batch is done. -/
def finishNote (report : Report) : Entry :=
  Journal.info ("Translation complete: ".toList ++ Text.ofNat report.succeeded.length
    ++ " succeeded, ".toList ++ Text.ofNat report.failed.length ++ " failed".toList)

section Run

variable {m : Type → Type} [Monad m] {S : Type} {effects : Stateful m S} {host : Host m}
  (serves : effects.Serves host)
include serves

theorem run_readSource (path : Text) (state : S) :
    effects.run (readSource host path) state = (sourceText (serves.volume state) path, state) := by
  simp only [readSource, Stateful.run_bind, serves.run_readFile, sourceText]
  cases (serves.volume state).read path with
  | error cause => simp only [Stateful.run_pure]
  | ok bytes =>
      cases decoded : Utf8.decode bytes <;> simp only [decoded, Stateful.run_pure]

/-- The answer of a sink to a prepared conversion and the state it leaves; a conversion that
failed before does not reach it. -/
def deliver (effects : Stateful m S) (sink : Sink m) (state : S) :
    Except Fault (Delivery × Text) → Except Fault Delivery × S
  | .error fault => (.error fault, state)
  | .ok (delivery, text) =>
      let answered := effects.run (sink delivery text) state
      (answered.1.map fun _ => delivery, answered.2)

/-- One conversion: its source is read and converted, then the text is delivered. -/
theorem run_convertInto (settings : Settings) (sink : Sink m) (delivery : Delivery) (state : S) :
    effects.run (convertInto host settings sink delivery) state =
      deliver effects sink
        ((loadingNotes settings (serves.volume state) delivery).foldl serves.noted state)
        (do
          let source ← sourceText (serves.volume state) delivery.input
          let text ← Conversion.convert settings delivery.stage source
          return (delivery, text)) := by
  simp only [bind, Except.bind, convertInto, Stateful.run_bind, serves.run_note,
    run_readSource serves, serves.volume_noted, loadingNotes, List.foldl_cons]
  cases sourceText (serves.volume state) delivery.input with
  | error fault => simp only [deliver, Stateful.run_pure, List.foldl_nil]
  | ok source =>
      simp only [Stateful.run_bind, serves.run_noteAll]
      cases Conversion.convert settings delivery.stage source with
      | error fault => simp only [deliver, Stateful.run_pure]
      | ok text =>
          simp only [deliver, pure, Except.pure, Stateful.run_bind]
          generalize (Conversion.notes settings delivery.stage source).foldl serves.noted _ = ready
          obtain ⟨answer, after⟩ := effects.run (sink delivery text) ready
          cases answer <;> simp only [Except.map, Stateful.run_pure]

/-- **One file of a batch**: it is prepared from the volume, then delivered, and noted before and
after. -/
theorem run_convertInput (settings : Settings) (stage : Option Stage) (sink : Sink m)
    (input : Text) (state : S) :
    effects.run (convertInput host settings stage sink input) state =
      let outcome := deliver effects sink
        ((notesBefore settings stage (serves.volume state) input).foldl serves.noted state)
        (prepare settings stage (serves.volume state) input)
      ((input, outcome.1), (notesAfter input outcome.1).foldl serves.noted outcome.2) := by
  simp only [convertInput, Stateful.run_bind, serves.run_note, notesBefore, prepare, List.foldl_cons]
  cases Plan.make input stage with
  | error fault =>
      simp only [bind, Except.bind, deliver, notesAfter, Stateful.run_bind, Stateful.run_pure,
        serves.run_note, List.foldl_cons, List.foldl_nil]
  | ok plan =>
      have delivered := run_convertInto serves settings sink ⟨input, plan.output, plan.stage⟩
        (serves.noted state (Journal.debug ("Processing file: ".toList ++ input)))
      rw [serves.volume_noted] at delivered
      simp only [Stateful.run_bind, delivered, bind, Except.bind]
      generalize deliver effects sink _ _ = outcome
      obtain ⟨answer, after⟩ := outcome
      cases answer <;>
        simp only [notesAfter, Stateful.run_bind, Stateful.run_pure, serves.run_note,
          List.foldl_cons, List.foldl_nil]

/-- **A whole batch**: its files one after another, between two notes. -/
theorem run_runInto (settings : Settings) (stage : Option Stage) (sink : Sink m)
    (inputs : List Text) (state : S) :
    effects.run (runInto host settings stage sink inputs) state =
      let files := effects.run (inputs.mapM (convertInput host settings stage sink))
        (serves.noted state (startNote inputs))
      (Report.ofOutcomes files.1, serves.noted files.2 (finishNote (Report.ofOutcomes files.1))) := by
  simp only [runInto, Stateful.run_bind, Stateful.run_pure, serves.run_note, startNote, finishNote]

end Run

/-! ### Calls of the sink -/

/-- One call of a sink: what it was given and what it answered. -/
structure Call where
  delivery : Delivery
  text : Text
  answer : Except Fault Unit

variable {σ : Type}

/-- The sink that keeps a record of its calls and is otherwise the same. -/
def recorded (sink : Sink (StateT σ (StateM World))) :
    Sink (StateT (σ × List Call) (StateM World)) := fun delivery text => do
  let (own, calls) ← get
  let (answer, own) ← StateT.lift ((sink delivery text).run own)
  set (own, calls ++ [⟨delivery, text, answer⟩])
  return answer

/-- The sink leaves the files at the paths as they are. -/
def Spares (sink : Sink (StateT σ (StateM World))) (paths : List Text) : Prop :=
  ∀ delivery text own world, ∀ path ∈ paths,
    (((sink delivery text).run own).run world).2.volume.read path = world.volume.read path

/-- How inputs, the calls made for them and their outcomes belong together: an input that is not
ready fails and no call is made, and for one that is ready the one call decides. -/
inductive Settled (prepared : Text → Except Fault (Delivery × Text)) :
    List Text → List Call → List (Text × Except Fault Delivery) → Prop where
  | nil : Settled prepared [] [] []
  | stopped {input : Text} {fault : Fault} {inputs : List Text} {calls : List Call}
      {outcomes : List (Text × Except Fault Delivery)} (unready : prepared input = .error fault)
      (rest : Settled prepared inputs calls outcomes) :
      Settled prepared (input :: inputs) calls ((input, .error fault) :: outcomes)
  | called {input : Text} {delivery : Delivery} {text : Text} {inputs : List Text}
      {calls : List Call} {outcomes : List (Text × Except Fault Delivery)}
      (ready : prepared input = .ok (delivery, text)) (answer : Except Fault Unit)
      (rest : Settled prepared inputs calls outcomes) :
      Settled prepared (input :: inputs) (⟨delivery, text, answer⟩ :: calls)
        ((input, answer.map fun _ => delivery) :: outcomes)

theorem prepare_congr (settings : Settings) (stage : Option Stage) {volume other : Volume}
    {input : Text} (same : other.read input = volume.read input) :
    prepare settings stage other input = prepare settings stage volume input := by
  simp only [prepare, sourceText, same]

theorem Settled.append {prepared : Text → Except Fault (Delivery × Text)}
    {first second : List Text} {calls more : List Call}
    {outcomes others : List (Text × Except Fault Delivery)}
    (settled : Settled prepared first calls outcomes) (rest : Settled prepared second more others) :
    Settled prepared (first ++ second) (calls ++ more) (outcomes ++ others) := by
  induction settled with
  | nil => exact rest
  | stopped unready _ ih => exact .stopped unready ih
  | called ready answer _ ih => exact .called ready answer ih

theorem run_recorded (sink : Sink (StateT σ (StateM World))) (delivery : Delivery) (text : Text)
    (own : σ) (calls : List Call) (world : World) :
    (Stateful.beside (σ × List Call)).run (recorded sink delivery text) ((own, calls), world) =
      let answered := (Stateful.beside σ).run (sink delivery text) (own, world)
      (answered.1, (answered.2.1, calls ++ [⟨delivery, text, answered.1⟩]), answered.2.2) :=
  rfl

/-- One file of a batch, with and without a record of the calls. -/
theorem run_convertInput_recorded (settings : Settings) (stage : Option Stage)
    (sink : Sink (StateT σ (StateM World))) {volume : Volume} {input : Text} (own : σ)
    (calls : List Call) (world : World) (unread : world.volume.read input = volume.read input) :
    let plain := (Stateful.beside σ).run
      (convertInput (World.host.lift σ) settings stage sink input) (own, world)
    ∃ made, (Stateful.beside (σ × List Call)).run
        (convertInput (World.host.lift (σ × List Call)) settings stage (recorded sink) input)
        ((own, calls), world) = (plain.1, (plain.2.1, calls ++ made), plain.2.2) ∧
      Settled (prepare settings stage volume) [input] made [plain.1] := by
  simp only [run_convertInput (Stateful.besideServes _), Stateful.foldl_noted_beside,
    Stateful.besideServes_volume, prepare_congr settings stage unread]
  cases ready : prepare settings stage volume input with
  | error fault =>
      refine ⟨[], ?_, .stopped ready .nil⟩
      simp only [deliver, List.append_nil]
  | ok job =>
      obtain ⟨delivery, text⟩ := job
      refine ⟨_, ?_, .called ready _ .nil⟩
      simp only [deliver, run_recorded]

/-- A file of a batch leaves alone what its sink does. -/
theorem read_convertInput (settings : Settings) (stage : Option Stage)
    {sink : Sink (StateT σ (StateM World))} {paths : List Text} (spares : Spares sink paths)
    (input : Text) (own : σ) (world : World) {path : Text} (listed : path ∈ paths) :
    ((Stateful.beside σ).run (convertInput (World.host.lift σ) settings stage sink input)
      (own, world)).2.2.volume.read path = world.volume.read path := by
  simp only [run_convertInput (Stateful.besideServes _), Stateful.foldl_noted_beside,
    Stateful.besideServes_volume]
  cases prepare settings stage world.volume input with
  | error fault => rfl
  | ok job => exact spares job.1 job.2 own _ path listed

/-- The files of a batch, with and without a record of the calls. -/
theorem run_mapM_recorded (settings : Settings) (stage : Option Stage)
    {sink : Sink (StateT σ (StateM World))} {volume : Volume} {inputs : List Text}
    (spares : Spares sink inputs) (own : σ) (calls : List Call) (world : World)
    (unread : ∀ input ∈ inputs, world.volume.read input = volume.read input) :
    let plain := (Stateful.beside σ).run
      (inputs.mapM (convertInput (World.host.lift σ) settings stage sink)) (own, world)
    ∃ made, (Stateful.beside (σ × List Call)).run
        (inputs.mapM (convertInput (World.host.lift (σ × List Call)) settings stage (recorded sink)))
        ((own, calls), world) = (plain.1, (plain.2.1, calls ++ made), plain.2.2) ∧
      Settled (prepare settings stage volume) inputs made plain.1 := by
  induction inputs generalizing own calls world with
  | nil => exact ⟨[], by simp, .nil⟩
  | cons input inputs ih =>
      have sparesRest : Spares sink inputs := fun delivery text own world path mem =>
        spares delivery text own world path (List.mem_cons_of_mem _ mem)
      obtain ⟨made, first, settled⟩ := run_convertInput_recorded settings stage sink own calls world
        (unread input List.mem_cons_self)
      have unreadRest : ∀ other ∈ inputs, _ = volume.read other := fun other mem =>
        (read_convertInput settings stage spares input own world
          (List.mem_cons_of_mem _ mem)).trans (unread other (List.mem_cons_of_mem _ mem))
      generalize stepped : (Stateful.beside σ).run
        (convertInput (World.host.lift σ) settings stage sink input) (own, world) = after
        at first settled unreadRest
      obtain ⟨outcome, ownAfter, worldAfter⟩ := after
      obtain ⟨more, others, rest⟩ := ih sparesRest ownAfter (calls ++ made) worldAfter unreadRest
      refine ⟨made ++ more, ?_, ?_⟩
      · simp only [Stateful.run_mapM_cons, stepped, first, others, List.append_assoc]
      · rw [Stateful.run_mapM_cons, stepped]
        exact settled.append rest

/-! ### What the report says -/

/-- The failures among inputs, in order, when the sink gives these answers to those that are
ready. One that is not ready fails with its own fault and takes up no answer. -/
def failures (prepared : Text → Except Fault (Delivery × Text)) :
    List Text → List (Except Fault Unit) → List Failure
  | [], _ => []
  | input :: inputs, answers =>
      match prepared input, answers with
      | .error fault, answers => ⟨input, fault⟩ :: failures prepared inputs answers
      | .ok _, .error fault :: answers => ⟨input, fault⟩ :: failures prepared inputs answers
      | .ok _, .ok () :: answers => failures prepared inputs answers
      | .ok _, [] => failures prepared inputs []

/-- A report accounts for the inputs of a batch and the calls of its sink. -/
structure Accounts (prepared : Text → Except Fault (Delivery × Text)) (inputs : List Text)
    (calls : List Call) (report : Report) : Prop where
  /-- One call for each input that is ready, in the order of the inputs, and no other. -/
  calls_eq : calls.map (fun call => (call.delivery, call.text)) =
    inputs.filterMap fun input => (prepared input).toOption
  /-- The calls that the sink accepted, in order. -/
  succeeded_eq : report.succeeded =
    (calls.filter fun call => call.answer.isOk).map fun call => call.delivery
  /-- The other inputs in order, each with its own fault or the one that the sink answered. -/
  failed_eq : report.failed = failures prepared inputs (calls.map fun call => call.answer)
  /-- Every input once, here or there. -/
  perm : (report.succeeded.map (fun delivery => delivery.input) ++
    report.failed.map fun failure => failure.path).Perm inputs

theorem Settled.accounts {prepared : Text → Except Fault (Delivery × Text)} {inputs : List Text}
    {calls : List Call} {outcomes : List (Text × Except Fault Delivery)}
    (named : ∀ input delivery text, prepared input = .ok (delivery, text) → delivery.input = input)
    (settled : Settled prepared inputs calls outcomes) :
    Accounts prepared inputs calls (Report.ofOutcomes outcomes) := by
  induction settled with
  | nil => exact ⟨rfl, rfl, rfl, .refl _⟩
  | @stopped input fault inputs calls outcomes unready rest ih =>
      refine ⟨?_, ?_, ?_, ?_⟩
      · simp [unready, Except.toOption, ih.calls_eq]
      · exact ih.succeeded_eq
      · simp [failures, unready, Report.ofOutcomes, Report.cons, ← ih.failed_eq]
      · exact List.perm_middle.trans (ih.perm.cons input)
  | @called input delivery text inputs calls outcomes ready answer rest ih =>
      cases answer with
      | error fault =>
          refine ⟨?_, ?_, ?_, ?_⟩
          · simp [ready, Except.toOption, ih.calls_eq]
          · exact ih.succeeded_eq
          · simp [failures, ready, Report.ofOutcomes, Report.cons, Except.map, ← ih.failed_eq]
          · exact List.perm_middle.trans (ih.perm.cons input)
      | ok _ =>
          refine ⟨?_, ?_, ?_, ?_⟩
          · simp [ready, Except.toOption, ih.calls_eq]
          · exact congrArg (delivery :: ·) ih.succeeded_eq
          · simp [failures, ready, Report.ofOutcomes, Report.cons, Except.map, ← ih.failed_eq]
          · have first : delivery.input = input := named input delivery text ready
            simpa [Report.ofOutcomes, Report.cons, Except.map, first] using ih.perm

/-- **The protocol of a sink.** Whatever a sink does, as long as it leaves the input files alone:
recording its calls changes nothing else, and it is called once for each input that can be
planned, read and converted, in order, with the input's own plan and text. The report lists the
calls it accepted and, with the first fault of each, the other inputs. -/
theorem runInto_accounts (settings : Settings) (stage : Option Stage) {inputs : List Text}
    {sink : Sink (StateT σ (StateM World))} (spares : Spares sink inputs) (own : σ) (world : World) :
    let plain := ((runInto (World.host.lift σ) settings stage sink inputs).run own).run world
    ∃ calls, ((runInto (World.host.lift (σ × List Call)) settings stage (recorded sink) inputs).run
        (own, [])).run world = ((plain.1.1, (plain.1.2, calls)), plain.2) ∧
      Accounts (prepare settings stage world.volume) inputs calls plain.1.1 := by
  obtain ⟨calls, traced, settled⟩ := run_mapM_recorded settings stage spares own []
    { world with journal := world.journal ++ [startNote inputs] } fun _ _ => rfl
  simp only [Stateful.run_eq_beside, run_runInto (Stateful.besideServes _)]
  refine ⟨calls, ?_, settled.accounts fun _ _ _ ready => (prepare_eq_ok_iff.mp ready).1⟩
  simp only [Stateful.besideServes_noted, traced, List.nil_append]

theorem spares_collector (refuse : Nat → Option Fault) (paths : List Text) :
    Spares (collector refuse) paths := by
  intro delivery text collection world path _
  simp only [collector]
  cases refused : refuse collection.calls <;> simp [refused] <;> rfl

theorem runInto_accounts_collector :
    let sink : Sink (StateT Collection (StateM World)) :=
      collector fun count => if count = 0 then some .missingMain else none
    let source := Utf8.encode "void main() \x7b\x7d".toList
    let world := World.mk ((Volume.empty ["home".toList]).put "a.vp".toList source) [] [] []
    let inputs := ["a.vp".toList, "b.vp".toList, "a.vp".toList]
    let plain := ((runInto (World.host.lift Collection) .standard none sink inputs).run {}).run world
    Spares sink inputs ∧
      plain.1.1 = ⟨[⟨"a.vp".toList, "a.cgvp".toList, .vertex⟩],
        [⟨"a.vp".toList, .missingMain⟩, ⟨"b.vp".toList, .file "b.vp".toList .notFound⟩]⟩ ∧
      ∃ calls,
        ((runInto (World.host.lift (Collection × List Call)) .standard none (recorded sink)
          inputs).run ({}, [])).run world = ((plain.1.1, (plain.1.2, calls)), plain.2) ∧
        Accounts (prepare .standard none world.volume) inputs calls plain.1.1 := by
  intro sink source world inputs plain
  have spares : Spares sink inputs := spares_collector _ inputs
  refine ⟨spares, by decide +kernel, ?_⟩
  -- The batch is not run once more to compare the statements.
  clear_value sink world inputs
  exact runInto_accounts .standard none spares {} world

end Batch

end CrossShade
