import CrossShade.Proofs.Deliveries
import CrossShade.Proofs.Places

/-!
What a batch does to the files. Each output stands in the folder of its input, under a name with
one of the output extensions, and nothing but outputs is written.

* `convertOn`: one file as a function on volumes; `Runs`: a batch of them.
* `Placed`: a file that is converted, with the place of its output.
* `exists_runs`: a batch on a world is such a run on its volume.
* `Runs.node?_eq`: a run changes the outputs of the files that it converts and nothing else.
* `read_run`: which inputs a batch keeps; `read_run_overwritten`: inputs that it does not.
-/

namespace CrossShade.Batch

open CrossShade.Path Plan Volume
open Utf8 (Bytes)

variable {settings : Settings} {stage : Option Stage} {volume after : Volume}
  {input front name text : Text} {delivery : Delivery}

/-! ### One file -/

/-- One file of a batch on a volume: what was delivered and the volume with the output in it, or
the fault. -/
def convertOn (settings : Settings) (stage : Option Stage) (volume : Volume) (input : Text) :
    Except Fault (Delivery × Volume) := do
  let (delivery, text) ← prepare settings stage volume input
  match volume.write delivery.output (Utf8.encode text) with
  | .error cause => .error (.file delivery.output cause)
  | .ok after => .ok (delivery, after)

theorem exists_write_of_convertOn
    (done : convertOn settings stage volume input = .ok (delivery, after)) :
    ∃ text, prepare settings stage volume input = .ok (delivery, text) ∧
      volume.write delivery.output (Utf8.encode text) = .ok after := by
  obtain ⟨⟨planned, text⟩, ready, wrote⟩ := bind_eq_ok_iff.mp done
  cases written : volume.write planned.output (Utf8.encode text) with
  | error cause => simp [written] at wrote
  | ok changed =>
      simp only [written, Except.ok.injEq, Prod.mk.injEq] at wrote
      obtain ⟨rfl, rfl⟩ := wrote
      exact ⟨text, ready, written⟩

/-- A file fails before it reaches the sink, or because its output cannot be written. -/
theorem convertOn_eq_error {fault : Fault}
    (failed : convertOn settings stage volume input = .error fault) :
    prepare settings stage volume input = .error fault ∨
      ∃ delivery text cause, prepare settings stage volume input = .ok (delivery, text) ∧
        fault = .file delivery.output cause := by
  cases ready : prepare settings stage volume input with
  | error cause =>
      simp only [convertOn, ready, bind, Except.bind, Except.error.injEq] at failed
      exact Or.inl (congrArg Except.error failed)
  | ok job =>
      obtain ⟨delivery, text⟩ := job
      simp only [convertOn, ready, bind, Except.bind] at failed
      split at failed
      · next cause _ =>
          cases failed
          exact Or.inr ⟨delivery, text, cause, rfl, rfl⟩
      · cases failed

/-- A file that cannot be read fails with the cause of that. -/
theorem convertOn_of_read_error {plan : Plan} (made : Plan.make input stage = .ok plan)
    {cause : FileFault} (absent : volume.read input = .error cause) :
    convertOn settings stage volume input = .error (.file input cause) := by
  simp only [convertOn, prepare, made, sourceText, absent, bind, Except.bind]

/-- A file that is converted: its output gets another name in the same folder, where there must
be no folder of that name. -/
structure Placed (settings : Settings) (stage : Option Stage) (volume : Volume)
    (front name text : Text) (delivery : Delivery) (after : Volume) : Prop where
  isFront : IsFront front
  isName : IsName name
  ready : prepare settings stage volume (front ++ name) = .ok (delivery, text)
  output_eq : delivery.output = front ++ outputName name delivery.stage
  opens : volume.Opens front
  noFolder : volume.node? (outputName name delivery.stage :: volume.folder front) ≠ some .directory
  after_eq : after =
    volume.set (outputName name delivery.stage :: volume.folder front) (.file (Utf8.encode text))

theorem Placed.place_output (placed : Placed settings stage volume front name text delivery after) :
    volume.place delivery.output = outputName name delivery.stage :: volume.folder front := by
  have isName := isName_outputName placed.isName delivery.stage
  rw [placed.output_eq, place_append placed.isFront isName.noSlash, step_name isName]

theorem convertOn_eq_ok_iff :
    convertOn settings stage volume input = .ok (delivery, after) ↔
      ∃ front name text, input = front ++ name ∧
        Placed settings stage volume front name text delivery after := by
  constructor
  · intro done
    obtain ⟨text, ready, written⟩ := exists_write_of_convertOn done
    obtain ⟨-, made, source, found, -⟩ := prepare_eq_ok_iff.mp ready
    obtain ⟨contents, present, -⟩ := sourceText_eq_ok_iff.mp found
    obtain ⟨front, name, isFront, noSlash, rfl⟩ := exists_front input
    obtain ⟨nonempty, ne_dot⟩ := name_of_read isFront noSlash present
    have output_eq : delivery.output = (forStage (front ++ name) delivery.stage).output :=
      congrArg Plan.output (eq_forStage_of_make made)
    by_cases dots : name = ['.', '.']
    · subst dots
      rw [output_eq, forStage, withExtension_dots isFront] at written
      exact absurd written (write_dots_ne_ok isFront _ _)
    · have isName : IsName name := ⟨nonempty, noSlash, ne_dot, dots⟩
      rcases forStage_output isFront isName delivery.stage with unnamed | named
      · rw [output_eq, unnamed] at written
        exact absurd written (write_dots_ne_ok isFront _ _)
      · have isOutput := isName_outputName isName delivery.stage
        rw [output_eq, named, write_append_eq_ok_iff isFront isOutput,
          place_append isFront isOutput.noSlash, step_name isOutput] at written
        obtain ⟨opens, noFolder, after_eq⟩ := written
        exact ⟨front, name, text, rfl, isFront, isName, ready, output_eq.trans named, opens,
          noFolder, after_eq⟩
  · rintro ⟨front, name, text, rfl, placed⟩
    have isName := isName_outputName placed.isName delivery.stage
    have written : volume.write delivery.output (Utf8.encode text) = .ok after := by
      rw [placed.output_eq, write_append_eq_ok_iff placed.isFront isName, ← placed.output_eq,
        placed.place_output]
      exact ⟨placed.opens, placed.noFolder, placed.after_eq⟩
    simp only [convertOn, placed.ready, bind, Except.bind, written]

/-! ### A run over files -/

/-- The volume after one file of a batch. -/
def volumeAfter (volume : Volume) : Except Fault (Delivery × Volume) → Volume
  | .error _ => volume
  | .ok (_, after) => after

/-- The answer of the file sink and the volume after it. -/
theorem run_fileSink (delivery : Delivery) (text : Text) (world : World) :
    let answered := Stateful.world.run (fileSink World.host delivery text) world
    (answered.1, answered.2.volume) =
      match world.volume.write delivery.output (Utf8.encode text) with
      | .error cause => (.error (.file delivery.output cause), world.volume)
      | .ok after => (.ok (), after) := by
  cases written : world.volume.write delivery.output (Utf8.encode text) with
  | error cause =>
      have refused : Stateful.world.run
          (World.host.writeFile delivery.output (Utf8.encode text)) world = (.error cause, world) := by
        simp only [Stateful.world, World.host]
        simp [written]
      simp only [fileSink, Stateful.run_bind, refused, Stateful.run_pure]
  | ok after =>
      have taken : Stateful.world.run (World.host.writeFile delivery.output (Utf8.encode text)) world =
          (.ok (), { world with volume := after }) := by
        simp only [Stateful.world, World.host]
        simp [written]
      simp only [fileSink, Stateful.run_bind, taken, Stateful.run_pure,
        Stateful.worldServes.run_note]
      rfl

/-- A world does to each file what is done to it on the volume. -/
theorem run_convertInput_fileSink (settings : Settings) (stage : Option Stage) (input : Text)
    (world : World) :
    let ran := Stateful.world.run
      (convertInput World.host settings stage (fileSink World.host) input) world
    let done := convertOn settings stage world.volume input
    ran.1 = (input, done.map Prod.fst) ∧ ran.2.volume = volumeAfter world.volume done := by
  have serves_volume : ∀ state, Stateful.worldServes.volume state = state.volume := fun _ => rfl
  have kept := Stateful.worldServes.volume_foldl_noted
  simp only [serves_volume] at kept
  simp only [run_convertInput Stateful.worldServes, serves_volume, kept, convertOn]
  have before := kept (notesBefore settings stage world.volume input) world
  generalize (notesBefore settings stage world.volume input).foldl Stateful.worldServes.noted world =
    noted at before
  cases prepare settings stage world.volume input with
  | error fault => exact ⟨rfl, before⟩
  | ok job =>
      have answered := run_fileSink job.1 job.2 noted
      rw [before] at answered
      simp only [deliver, bind, Except.bind]
      cases written : world.volume.write job.1.output (Utf8.encode job.2)
      all_goals
        rw [written] at answered
        obtain ⟨answer_eq, volume_eq⟩ := Prod.mk.inj answered
        rw [answer_eq, volume_eq]
        exact ⟨rfl, rfl⟩

/-- A batch on a volume: file after file, each on the volume that the one before left. -/
inductive Runs (settings : Settings) (stage : Option Stage) :
    Volume → List Text → List (Text × Except Fault Delivery) → Volume → Prop where
  | nil (volume : Volume) : Runs settings stage volume [] [] volume
  | failed {volume last : Volume} {input : Text} {fault : Fault} {inputs : List Text}
      {outcomes : List (Text × Except Fault Delivery)}
      (failed : convertOn settings stage volume input = .error fault)
      (rest : Runs settings stage volume inputs outcomes last) :
      Runs settings stage volume (input :: inputs) ((input, .error fault) :: outcomes) last
  | converted {volume after last : Volume} {input : Text} {delivery : Delivery}
      {inputs : List Text} {outcomes : List (Text × Except Fault Delivery)}
      (done : convertOn settings stage volume input = .ok (delivery, after))
      (rest : Runs settings stage after inputs outcomes last) :
      Runs settings stage volume (input :: inputs) ((input, .ok delivery) :: outcomes) last

theorem runs_mapM (settings : Settings) (stage : Option Stage) (inputs : List Text)
    (world : World) :
    let ran := Stateful.world.run
      (inputs.mapM (convertInput World.host settings stage (fileSink World.host))) world
    Runs settings stage world.volume inputs ran.1 ran.2.volume := by
  induction inputs generalizing world with
  | nil => exact .nil world.volume
  | cons input inputs ih =>
      obtain ⟨outcome_eq, volume_eq⟩ := run_convertInput_fileSink settings stage input world
      simp only [Stateful.run_mapM_cons]
      have rest := ih (Stateful.world.run
        (convertInput World.host settings stage (fileSink World.host) input) world).2
      rw [volume_eq] at rest
      rw [outcome_eq]
      cases done : convertOn settings stage world.volume input with
      | error fault =>
          rw [done] at rest
          exact .failed done rest
      | ok result =>
          rw [done] at rest
          exact .converted done rest

/-- **A batch runs file by file.** -/
theorem exists_runs (settings : Settings) (stage : Option Stage) (inputs : List Text)
    (world : World) :
    let ran := (Batch.run World.host settings stage inputs).run world
    ∃ outcomes, ran.1 = Report.ofOutcomes outcomes ∧
      Runs settings stage world.volume inputs outcomes ran.2.volume := by
  have whole : (Batch.run World.host settings stage inputs).run world = Stateful.world.run
      (runInto World.host settings stage (fileSink World.host) inputs) world := rfl
  rw [whole, run_runInto Stateful.worldServes]
  exact ⟨_, rfl, runs_mapM settings stage inputs (Stateful.worldServes.noted world (startNote inputs))⟩

/-! ### What a run changes -/

/-- The place has the name of an output for the stage, or for any stage if none is given. -/
def IsOutput (stage : Option Stage) (place : Location) : Prop :=
  ∃ target name folder, (stage = none ∨ stage = some target) ∧ place = name :: folder ∧
    (splitName name).2 = some target.outputExtension

/-- Two volumes have the same folders and differ in outputs only. -/
structure DiffersInOutputs (stage : Option Stage) (volume other : Volume) : Prop where
  folders : SameFolders volume other
  node?_eq : ∀ place, ¬IsOutput stage place → other.node? place = volume.node? place

namespace DiffersInOutputs

theorem refl (stage : Option Stage) (volume : Volume) : DiffersInOutputs stage volume volume :=
  ⟨.refl volume, fun _ _ => rfl⟩

theorem trans {first second third : Volume} (one : DiffersInOutputs stage first second)
    (two : DiffersInOutputs stage second third) : DiffersInOutputs stage first third :=
  ⟨one.folders.trans two.folders,
    fun place other => (two.node?_eq place other).trans (one.node?_eq place other)⟩

theorem symm {other : Volume} (differs : DiffersInOutputs stage volume other) :
    DiffersInOutputs stage other volume :=
  ⟨differs.folders.symm, fun place unlike => (differs.node?_eq place unlike).symm⟩

/-- A file whose name has another extension is read in both. -/
theorem read_eq_ok {other : Volume} (differs : DiffersInOutputs stage volume other) {path : Text}
    {contents : Bytes} (present : volume.read path = .ok contents) (named : fileName? path ≠ none)
    (unlike : ∀ target, stage = none ∨ stage = some target →
      extension? path ≠ some target.outputExtension) :
    other.read path = .ok contents := by
  obtain ⟨front, name, isFront, noSlash, rfl⟩ := exists_front path
  obtain ⟨nonempty, ne_dot⟩ := name_of_read isFront noSlash present
  have isName : IsName name := by
    refine ⟨nonempty, noSlash, ne_dot, ?_⟩
    rintro rfl
    exact named (fileName?_dots isFront)
  refine (differs.folders.read_eq_ok_iff (differs.node?_eq _ ?_)).mpr present
  rw [place_append isFront noSlash, step_name isName]
  rintro ⟨target, _, _, given, same, extended⟩
  cases same
  rw [extension?_append isFront isName] at unlike
  exact unlike target given extended

end DiffersInOutputs

namespace Placed

variable (placed : Placed settings stage volume front name text delivery after)
include placed

theorem isOutput : IsOutput stage (volume.place delivery.output) := by
  obtain ⟨-, made, -⟩ := prepare_eq_ok_iff.mp placed.ready
  rw [placed.place_output]
  exact ⟨delivery.stage, _, _, stage_of_make made, rfl,
    congrArg Prod.snd (splitName_outputName placed.isName delivery.stage)⟩

theorem node?_after (place : Location) :
    after.node? place =
      if place = volume.place delivery.output then some (.file (Utf8.encode text))
      else volume.node? place := by
  rw [placed.after_eq, node?_set (by simp), placed.place_output]

theorem differsInOutputs : DiffersInOutputs stage volume after := by
  refine ⟨?_, ?_⟩
  · rw [placed.after_eq]
    exact sameFolders_set (by simp) placed.noFolder _
  · intro place other
    rw [placed.node?_after, if_neg]
    rintro rfl
    exact other placed.isOutput

end Placed

namespace Runs

variable {last : Volume} {inputs : List Text} {outcomes : List (Text × Except Fault Delivery)}

/-- A run leaves the folders and all that is not an output. -/
theorem differsInOutputs (runs : Runs settings stage volume inputs outcomes last) :
    DiffersInOutputs stage volume last := by
  induction runs with
  | nil volume => exact .refl stage volume
  | failed _ _ ih => exact ih
  | converted done _ ih =>
      obtain ⟨front, name, text, rfl, placed⟩ := convertOn_eq_ok_iff.mp done
      exact placed.differsInOutputs.trans ih

/-- A run changes nothing but the outputs of the files that it converts. -/
theorem node?_eq (runs : Runs settings stage volume inputs outcomes last) {place : Location}
    (other : ∀ delivery ∈ (Report.ofOutcomes outcomes).succeeded,
      volume.place delivery.output ≠ place) :
    last.node? place = volume.node? place := by
  induction runs with
  | nil => rfl
  | failed _ _ ih => exact ih other
  | @converted volume after last input delivery inputs outcomes done rest ih =>
      obtain ⟨front, name, text, rfl, placed⟩ := convertOn_eq_ok_iff.mp done
      have here : place ≠ volume.place delivery.output :=
        (other delivery List.mem_cons_self).symm
      rw [ih, placed.node?_after, if_neg here]
      intro later listed
      rw [placed.differsInOutputs.folders.place_eq]
      exact other later (List.mem_cons_of_mem _ listed)

end Runs

/-- **A batch overwrites no file but its own outputs**: an input keeps its contents unless it is
at the place of an output that was delivered, and so it does whenever its name has another
extension than the outputs. -/
theorem read_run (settings : Settings) (stage : Option Stage) (inputs : List Text) (world : World) :
    let ran := (Batch.run World.host settings stage inputs).run world
    ∀ input ∈ inputs, ∀ contents, world.volume.read input = .ok contents →
      ((∀ delivery ∈ ran.1.succeeded,
          world.volume.place delivery.output ≠ world.volume.place input) →
        ran.2.volume.read input = .ok contents) ∧
      (fileName? input ≠ none → (∀ target, stage = none ∨ stage = some target →
          extension? input ≠ some target.outputExtension) →
        ran.2.volume.read input = .ok contents) := by
  obtain ⟨outcomes, report_eq, runs⟩ := exists_runs settings stage inputs world
  intro ran input _ contents present
  constructor
  · intro elsewhere
    rw [show ran.1 = Report.ofOutcomes outcomes from report_eq] at elsewhere
    exact (runs.differsInOutputs.folders.read_eq_ok_iff (runs.node?_eq elsewhere)).mpr present
  · exact runs.differsInOutputs.read_eq_ok present

theorem read_run_vertex :
    let source := Utf8.encode "void main() \x7b\x7d".toList
    let world := World.mk ((Volume.empty ["home".toList]).put "a.vp".toList source) [] [] []
    let ran := (Batch.run World.host .standard none ["a.vp".toList]).run world
    world.volume.read "a.vp".toList = .ok source ∧ ran.2.volume.read "a.vp".toList = .ok source := by
  intro source world ran
  have present : world.volume.read "a.vp".toList = .ok source := by decide +kernel
  clear_value source world
  have kept := read_run .standard none ["a.vp".toList] world "a.vp".toList List.mem_cons_self source
    present
  refine ⟨present, kept.2 ?_ ?_⟩
  · decide
  · intro target _
    cases target <;> decide

/-- An input that is its own output is overwritten, and so is one that is the output of another. -/
theorem read_run_overwritten :
    let source := Utf8.encode "void main() \x7b\x7d".toList
    let one := World.mk ((Volume.empty ["home".toList]).put "a.cgvp".toList source) [] [] []
    let two := World.mk (one.volume.put "a.vp".toList source) [] [] []
    let given := (Batch.run World.host .standard (some .vertex) ["a.cgvp".toList]).run one
    let ran := (Batch.run World.host .standard none ["a.vp".toList, "a.cgvp".toList]).run two
    (one.volume.read "a.cgvp".toList = .ok source ∧
        given.2.volume.read "a.cgvp".toList ≠ .ok source) ∧
      two.volume.read "a.cgvp".toList = .ok source ∧
        ran.2.volume.read "a.cgvp".toList ≠ .ok source := by
  decide +kernel

end CrossShade.Batch
