import CrossShade.Proofs.Outputs

/-!
The files of a batch do not interfere. Without a stage given, an input is named `.vp` or `.fp`
and an output `.cgvp` or `.cgfp`, so no output is ever read as a source, and two inputs with one
output are one file under two paths. What a batch makes of each file is therefore what would
become of it alone.

* `Placed.transfer`: a conversion carries over to a volume that differs in outputs.
* `ctorIdx_eq_of_convertOn`: so does the kind of a failure.
* `Placed.text_eq`: one output has one text.
* `run_separate`: what a batch reports and what it leaves behind.
-/

namespace CrossShade.Batch

open CrossShade.Path Plan Volume

variable {settings : Settings} {stage : Option Stage} {volume other : Volume} {input : Text}

/-! ### One file on two volumes -/

/-- A source is read alike in volumes that differ in outputs. -/
theorem read_of_make (differs : DiffersInOutputs none volume other) {plan : Plan}
    (made : Plan.make input none = .ok plan) {contents : Utf8.Bytes}
    (present : volume.read input = .ok contents) : other.read input = .ok contents := by
  have extended := extension?_of_make made
  refine differs.read_eq_ok present ?_ ?_
  · intro unnamed
    rw [extension?, unnamed] at extended
    cases extended
  · intro target _
    rw [extended, ne_eq, Option.some.injEq]
    exact Stage.inputExtension_ne_outputExtension plan.stage target

theorem Placed.transfer {front name text : Text} {delivery : Delivery} {after : Volume}
    (placed : Placed settings none volume front name text delivery after)
    (differs : DiffersInOutputs none volume other) :
    ∃ last, Placed settings none other front name text delivery last := by
  obtain ⟨-, made, source, found, -⟩ := prepare_eq_ok_iff.mp placed.ready
  obtain ⟨contents, present, -⟩ := sourceText_eq_ok_iff.mp found
  have same : other.read (front ++ name) = volume.read (front ++ name) :=
    (read_of_make differs made present).trans present.symm
  refine ⟨_, placed.isFront, placed.isName, ?_, placed.output_eq, ?_, ?_, rfl⟩
  · rw [prepare_congr settings none same, placed.ready]
  · exact (differs.folders.opens_iff front).mpr placed.opens
  · rw [differs.folders.folder_eq, ne_eq, differs.folders.directory_iff]
    exact placed.noFolder

theorem convertOn_transfer {delivery : Delivery} {after : Volume}
    (differs : DiffersInOutputs none volume other)
    (done : convertOn settings none volume input = .ok (delivery, after)) :
    ∃ last, convertOn settings none other input = .ok (delivery, last) := by
  obtain ⟨front, name, text, rfl, placed⟩ := convertOn_eq_ok_iff.mp done
  obtain ⟨last, there⟩ := placed.transfer differs
  exact ⟨last, convertOn_eq_ok_iff.mpr ⟨front, name, text, rfl, there⟩⟩

/-- An output in the way of a path may be the cause of a fault that had another cause before; the
kind of fault stays the same. -/
theorem ctorIdx_eq_of_convertOn {fault fault' : Fault}
    (differs : DiffersInOutputs none volume other)
    (failed : convertOn settings none volume input = .error fault)
    (failed' : convertOn settings none other input = .error fault') :
    fault'.ctorIdx = fault.ctorIdx := by
  cases made : Plan.make input none with
  | error cause =>
      simp only [convertOn, prepare, made, bind, Except.bind, Except.error.injEq] at failed failed'
      rw [← failed, ← failed']
  | ok plan =>
      cases present : volume.read input with
      | error cause =>
          cases present' : other.read input with
          | ok contents =>
              rw [read_of_make differs.symm made present'] at present
              cases present
          | error cause' =>
              rw [convertOn_of_read_error made present] at failed
              rw [convertOn_of_read_error made present'] at failed'
              cases failed
              cases failed'
              rfl
      | ok contents =>
          have same := (read_of_make differs made present).trans present.symm
          have prepared := prepare_congr settings none same
          -- Both get as far as the sink, or neither does and the fault is the same.
          rcases convertOn_eq_error failed with unready | ⟨delivery, text, cause, ready, rfl⟩
          · rcases convertOn_eq_error failed' with unready' | ⟨_, _, _, ready', -⟩
            · rw [prepared, unready] at unready'
              cases unready'
              rfl
            · rw [prepared, unready] at ready'
              cases ready'
          · rcases convertOn_eq_error failed' with unready' | ⟨_, _, _, -, rfl⟩
            · rw [prepared, ready] at unready'
              cases unready'
            · rfl

/-! ### A run of files -/

/-- What a batch should report of inputs, given what becomes of each alone: every one of them
once, in order, and each failure with the kind that it has alone. -/
structure Reports (alone : Text → Except Fault Delivery) (inputs : List Text) (report : Report) :
    Prop where
  total_eq : report.total = inputs.length
  succeeded_eq : report.succeeded = inputs.filterMap fun input => (alone input).toOption
  failed_eq : report.failed.map (fun failure => (failure.path, failure.fault.ctorIdx)) =
    inputs.filterMap fun input =>
      match alone input with
      | .error fault => some (input, fault.ctorIdx)
      | .ok _ => none

theorem Report.total_cons (report : Report) (input : Text) (outcome : Except Fault Delivery) :
    (report.cons input outcome).total = report.total + 1 := by
  cases outcome with
  | error fault =>
      simp only [Report.total, Report.cons, List.length_cons]
      omega
  | ok delivery =>
      simp only [Report.total, Report.cons, List.length_cons]
      omega

namespace Reports

variable {alone : Text → Except Fault Delivery} {inputs : List Text} {report : Report}

theorem failed (reports : Reports alone inputs report) {fault fault' : Fault}
    (fails : alone input = .error fault') (same : fault'.ctorIdx = fault.ctorIdx) :
    Reports alone (input :: inputs) (report.cons input (.error fault)) := by
  refine ⟨?_, ?_, ?_⟩
  · rw [Report.total_cons, reports.total_eq, List.length_cons]
  · simp [Report.cons, fails, Except.toOption, reports.succeeded_eq]
  · simp [Report.cons, fails, same, reports.failed_eq]

theorem converted (reports : Reports alone inputs report) {delivery : Delivery}
    (succeeds : alone input = .ok delivery) :
    Reports alone (input :: inputs) (report.cons input (.ok delivery)) := by
  refine ⟨?_, ?_, ?_⟩
  · rw [Report.total_cons, reports.total_eq, List.length_cons]
  · simp [Report.cons, succeeds, Except.toOption, reports.succeeded_eq]
  · simp [Report.cons, succeeds, reports.failed_eq]

end Reports

theorem Runs.reports {start last : Volume} {inputs : List Text}
    {outcomes : List (Text × Except Fault Delivery)} (differs : DiffersInOutputs none start volume)
    (runs : Runs settings none volume inputs outcomes last) :
    Reports (fun input => (convertOn settings none start input).map Prod.fst) inputs
      (Report.ofOutcomes outcomes) := by
  induction runs with
  | nil => exact ⟨rfl, rfl, rfl⟩
  | @failed volume last input fault inputs outcomes failed _ ih =>
      cases done : convertOn settings none start input with
      | error fault' =>
          have same := ctorIdx_eq_of_convertOn differs.symm failed done
          exact (ih differs).failed (by simp [done, Except.map]) same
      | ok result =>
          obtain ⟨_, there⟩ := convertOn_transfer differs done
          rw [failed] at there
          cases there
  | @converted volume after last input delivery inputs outcomes done _ ih =>
      obtain ⟨_, there⟩ := convertOn_transfer differs.symm done
      obtain ⟨front, name, text, rfl, placed⟩ := convertOn_eq_ok_iff.mp done
      refine (ih (differs.trans placed.differsInOutputs)).converted ?_
      simp [there, Except.map]

/-! ### One text for each output -/

section Origin

variable {front name text front' name' text' : Text} {delivery delivery' : Delivery}
  {after after' : Volume}

theorem Placed.name_eq (placed : Placed settings none volume front name text delivery after) :
    name = (splitName name).1 ++ '.' :: delivery.stage.inputExtension := by
  obtain ⟨-, made, -⟩ := prepare_eq_ok_iff.mp placed.ready
  have extended := extension?_of_make made
  rw [extension?_append placed.isFront placed.isName] at extended
  rcases splitName_cases name with bare | ⟨stem, extension, parts, -, -, joined⟩
  · rw [bare] at extended
    cases extended
  · rw [parts] at extended ⊢
    cases extended
    exact joined

/-- What is generated depends on the stage and on the file at the input's place. -/
theorem Placed.generated (placed : Placed settings stage volume front name text delivery after) :
    ∃ contents source, volume.node? (name :: volume.folder front) = some (.file contents) ∧
      Utf8.decode contents = .ok source ∧
        Conversion.convert settings delivery.stage source = .ok text := by
  obtain ⟨-, -, source, found, converted⟩ := prepare_eq_ok_iff.mp placed.ready
  obtain ⟨contents, present, decoded⟩ := sourceText_eq_ok_iff.mp found
  obtain ⟨-, -, isFile⟩ := (read_append_eq_ok_iff placed.isFront placed.isName.noSlash).mp present
  rw [place_append placed.isFront placed.isName.noSlash, step_name placed.isName] at isFile
  exact ⟨contents, source, isFile, decoded, converted⟩

/-- Two conversions with one output have one source, for its name and stage can be told from
those of the output. -/
theorem Placed.text_eq (placed : Placed settings none volume front name text delivery after)
    (placed' : Placed settings none volume front' name' text' delivery' after')
    (same : volume.place delivery'.output = volume.place delivery.output) : text' = text := by
  rw [placed.place_output, placed'.place_output] at same
  obtain ⟨names, folders⟩ := List.cons.inj same
  have parts := congrArg splitName names
  rw [splitName_outputName placed.isName, splitName_outputName placed'.isName, Prod.mk.injEq,
    Option.some.injEq] at parts
  obtain ⟨stems, extensions⟩ := parts
  have stages : delivery'.stage = delivery.stage := Stage.outputExtension_inj extensions
  have sources : name' = name := by
    rw [placed.name_eq, placed'.name_eq, stems, stages]
  obtain ⟨contents, source, isFile, decoded, converted⟩ := placed.generated
  obtain ⟨contents', source', isFile', decoded', converted'⟩ := placed'.generated
  rw [sources, folders, isFile] at isFile'
  cases isFile'
  rw [decoded] at decoded'
  cases decoded'
  rw [stages, converted] at converted'
  cases converted'
  rfl

end Origin

theorem Runs.output {start last : Volume} {inputs : List Text}
    {outcomes : List (Text × Except Fault Delivery)} (differs : DiffersInOutputs none start volume)
    (runs : Runs settings none volume inputs outcomes last) :
    ∀ delivery ∈ (Report.ofOutcomes outcomes).succeeded, ∃ front name text after,
      Placed settings none start front name text delivery after ∧
        last.node? (start.place delivery.output) = some (.file (Utf8.encode text)) := by
  induction runs with
  | nil => simp [Report.ofOutcomes]
  | failed _ _ ih => exact ih differs
  | @converted volume after last input delivery inputs outcomes done rest ih =>
      obtain ⟨front, name, text, rfl, placed⟩ := convertOn_eq_ok_iff.mp done
      have later := ih (differs.trans placed.differsInOutputs)
      obtain ⟨last', there⟩ := placed.transfer differs.symm
      intro listed mem
      rcases List.mem_cons.mp mem with rfl | mem
      · refine ⟨front, name, text, last', there, ?_⟩
        by_cases again : ∃ delivery ∈ (Report.ofOutcomes outcomes).succeeded,
            start.place delivery.output = start.place listed.output
        · obtain ⟨delivery, mem, same⟩ := again
          obtain ⟨front', name', text', after', placed', written⟩ := later delivery mem
          rw [← same, written, there.text_eq placed' same]
        · have kept : ∀ delivery ∈ (Report.ofOutcomes outcomes).succeeded,
              after.place delivery.output ≠ start.place listed.output := by
            intro delivery mem same
            rw [(differs.trans placed.differsInOutputs).folders.place_eq] at same
            exact again ⟨delivery, mem, same⟩
          rw [rest.node?_eq kept, placed.node?_after, differs.folders.place_eq, if_pos rfl]
      · exact later listed mem

/-! ### A whole batch -/

/-- What becomes of a file when no other is converted before it. -/
def alone (settings : Settings) (world : World) (input : Text) : Except Fault Delivery :=
  ((convertInput World.host settings none (fileSink World.host) input).run world).1.2

theorem alone_eq (settings : Settings) (world : World) (input : Text) :
    alone settings world input = (convertOn settings none world.volume input).map Prod.fst :=
  congrArg Prod.snd (run_convertInput_fileSink settings none input world).1

/-- What a batch should leave behind: the output of each delivery, generated from the source as it
was before the batch, and everything else as it was. -/
structure Leaves (settings : Settings) (volume : Volume) (deliveries : List Delivery)
    (last : Volume) : Prop where
  output : ∀ delivery ∈ deliveries, ∃ source text,
    Plan.make delivery.input none = .ok ⟨delivery.output, delivery.stage⟩ ∧
      sourceText volume delivery.input = .ok source ∧
        Conversion.convert settings delivery.stage source = .ok text ∧
          last.read delivery.output = .ok (Utf8.encode text)
  elsewhere : ∀ place, (∀ delivery ∈ deliveries, volume.place delivery.output ≠ place) →
    last.node? place = volume.node? place
  current : last.current = volume.current

theorem Runs.leaves {last : Volume} {inputs : List Text}
    {outcomes : List (Text × Except Fault Delivery)}
    (runs : Runs settings none volume inputs outcomes last) :
    Leaves settings volume (Report.ofOutcomes outcomes).succeeded last := by
  refine ⟨?_, fun place other => runs.node?_eq other, runs.differsInOutputs.folders.current⟩
  intro delivery mem
  obtain ⟨front, name, text, after, placed, written⟩ := runs.output (.refl none volume) delivery mem
  obtain ⟨named, made, source, found, converted⟩ := prepare_eq_ok_iff.mp placed.ready
  refine ⟨source, text, named ▸ made, named ▸ found, converted, ?_⟩
  have folders := runs.differsInOutputs.folders
  have isOutput := isName_outputName placed.isName delivery.stage
  rw [placed.output_eq] at written ⊢
  rw [read_append_eq_ok_iff placed.isFront isOutput.noSlash, folders.place_eq, folders.opens_iff]
  exact ⟨by simp [isOutput.nonempty], placed.opens, written⟩

/-- **The files of a batch do not interfere.** A batch without a given stage reports of each
file what would become of it alone, and changes the outputs of the files that succeed and nothing
else. -/
theorem run_separate (settings : Settings) (inputs : List Text) (world : World) :
    let ran := (Batch.run World.host settings none inputs).run world
    Reports (alone settings world) inputs ran.1 ∧
      Leaves settings world.volume ran.1.succeeded ran.2.volume := by
  obtain ⟨outcomes, report_eq, runs⟩ := exists_runs settings none inputs world
  intro ran
  rw [show ran.1 = Report.ofOutcomes outcomes from report_eq]
  refine ⟨?_, runs.leaves⟩
  rw [show alone settings world = _ from funext (alone_eq settings world)]
  exact runs.reports (.refl none world.volume)

end CrossShade.Batch
