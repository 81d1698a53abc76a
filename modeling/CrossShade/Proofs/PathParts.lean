import CrossShade.Proofs.FileNames

/-!
Paths by their parts. Slashes in a row and single dots between them say nothing, so one path can be
written in many ways; what tells paths apart is the list of their parts. Behind the file name a path
may end in a trail of slashes and single dots.

* `exists_of_fileName?`: a path with a file name is a front, the name and a trail.
* `parts_append`: the name is the last part, whatever the trail is.
* `withExtension_of_parts`: another extension takes the place of the old one and of the trail.
* `Plan.make_tells_apart`: a planned output keeps folder and stem; inputs that differ have outputs
  that differ, and an output is no input.
-/

namespace CrossShade.Path

/-! ### Parts -/

/-- Where a path starts: at the root, in the folder itself, or unsaid. -/
def start (path : Text) : List Text :=
  if path.head? = some '/' then [['/']]
  else if (components path).head? = some ['.'] then [['.']]
  else []

/-- A component that is not empty and no single dot. -/
def isPart (component : Text) : Bool :=
  component != [] && component != ['.']

/-- The parts of a path: where it starts, and its components. Paths are the same if their parts
are. -/
def parts (path : Text) : List Text :=
  start path ++ (components path).filter isPart

/-- The parts of the folder that a path stands in. The root and the empty path stand in none. -/
def parent? (path : Text) : Option (List Text) :=
  if parts path = [] ∨ parts path = [['/']] then none else some (parts path).dropLast

/-- The file name without its extension. -/
def fileStem? (path : Text) : Option Text :=
  (fileName? path).map fun name => (splitName name).1

/-- The path has a file name, and its stem is no single dot. -/
def IsStemmed (path : Text) : Prop :=
  ∃ stem, fileStem? path = some stem ∧ stem ≠ ['.']

/-! ### Trails -/

/-- What may stand behind a name and says nothing: slashes, and single dots behind them. -/
inductive IsTrail : Text → Prop where
  | nil : IsTrail []
  | slash {trail : Text} (more : IsTrail trail) : IsTrail (trail ++ ['/'])
  | dot {trail : Text} (more : IsTrail trail) : IsTrail (trail ++ ['/', '.'])

section Trails

variable {path trail taken : Text}

theorem dropTrailing_trail (isTrail : IsTrail trail) (rest : Text) :
    dropTrailing (trail.reverse ++ rest) = dropTrailing rest := by
  induction isTrail with
  | nil => rfl
  | slash _ ih => simpa [dropTrailing] using ih
  | dot _ ih => simpa [dropTrailing] using ih

theorem split_append_trail (isTrail : IsTrail trail) (path : Text) :
    split (path ++ trail) = split path := by
  simp only [split, List.reverse_append, dropTrailing_trail isTrail]

theorem fileName?_append_trail (isTrail : IsTrail trail) (path : Text) :
    fileName? (path ++ trail) = fileName? path := by
  rw [fileName?, fileName?, split_append_trail isTrail]

theorem IsTrail.of_prefix (isTrail : IsTrail trail) (begins : taken <+: trail) : IsTrail taken := by
  induction isTrail with
  | nil =>
      rw [List.prefix_nil.mp begins]
      exact .nil
  | @slash trail more ih =>
      rcases List.prefix_concat_iff.mp begins with rfl | inside
      · exact more.slash
      · exact ih inside
  | @dot trail more ih =>
      have whole : trail ++ ['/', '.'] = trail ++ ['/'] ++ ['.'] := by simp
      rw [whole] at begins
      rcases List.prefix_concat_iff.mp begins with rfl | inside
      · rw [← whole]
        exact more.dot
      · rcases List.prefix_concat_iff.mp inside with rfl | inside
        · exact more.slash
        · exact ih inside

/-- What is passed over at the end of a path is a trail, if anything is left in front of it. -/
theorem exists_trail {reversed : Text} (left : dropTrailing reversed ≠ []) :
    ∃ trail, IsTrail trail ∧ reversed = trail.reverse ++ dropTrailing reversed := by
  fun_induction dropTrailing reversed with
  | case1 rest ih =>
      obtain ⟨trail, isTrail, whole⟩ := ih left
      exact ⟨trail ++ ['/'], isTrail.slash, by simpa using whole⟩
  | case2 rest ih =>
      obtain ⟨trail, isTrail, whole⟩ := ih left
      exact ⟨trail ++ ['/', '.'], isTrail.dot, by simpa using whole⟩
  | case3 => exact absurd rfl left
  | case4 reversed => exact ⟨[], .nil, rfl⟩

/-- No slash and no single dot is left at the end of a path. -/
theorem dropTrailing_ends (reversed : Text) :
    (∀ rest, dropTrailing reversed ≠ '/' :: rest) ∧
      (∀ rest, dropTrailing reversed ≠ '.' :: '/' :: rest) ∧ dropTrailing reversed ≠ ['.'] := by
  fun_induction dropTrailing reversed with
  | case1 rest ih => exact ih
  | case2 rest ih => exact ih
  | case3 => simp
  | case4 reversed slash dots dot => exact ⟨slash, dots, dot⟩

end Trails

/-- **A path with a file name** is a front, the name and a trail. -/
theorem exists_of_fileName? {path name : Text} (named : fileName? path = some name) :
    ∃ front trail, IsFront front ∧ IsName name ∧ IsTrail trail ∧
      path = front ++ (name ++ trail) := by
  let reversed := dropTrailing path.reverse
  let last := reversed.takeWhile (· != '/')
  let earlier := reversed.dropWhile (· != '/')
  have found : (if last.reverse = [] ∨ last.reverse = "..".toList then none
      else some last.reverse) = some name := named
  split at found
  · cases found
  next isFile =>
  obtain ⟨nonempty, ne_dots⟩ := not_or.mp isFile
  obtain rfl := Option.some.inj found
  have cut : last ++ earlier = reversed := List.takeWhile_append_dropWhile
  have stops : ∀ c ∈ earlier.head?, c = '/' := by
    intro c first
    have stop := List.head?_dropWhile_not (· != '/') reversed
    rw [show (reversed.dropWhile (· != '/')).head? = some c from first] at stop
    simpa using stop
  have left : reversed ≠ [] := by
    intro nothing
    rw [nothing] at cut
    exact nonempty (List.reverse_eq_nil_iff.mpr (List.append_eq_nil_iff.mp cut).1)
  obtain ⟨trail, isTrail, whole⟩ := exists_trail left
  obtain ⟨-, noDots, noDot⟩ := dropTrailing_ends path.reverse
  refine ⟨earlier.reverse, trail, ?_, ⟨nonempty, ?_, ?_, ne_dots⟩, isTrail, ?_⟩
  · intro c first
    rw [List.getLast?_reverse] at first
    exact stops c first
  · intro mem
    simpa using List.mem_takeWhile_imp (List.mem_reverse.mp mem)
  · intro dot
    rw [List.reverse_eq_iff.mp dot] at cut
    cases behind : earlier with
    | nil =>
        rw [behind] at cut
        exact noDot cut.symm
    | cons c rest =>
        obtain rfl := stops c (by rw [behind]; rfl)
        rw [behind] at cut
        exact noDots rest cut.symm
  · have backwards : path.reverse = trail.reverse ++ (last ++ earlier) := whole.trans (by rw [cut])
    simpa using congrArg List.reverse backwards

/-! ### The parts of a path with a name -/

section Named

variable {front name trail : Text}

theorem components_append_slash (folder : Text) (noSlash : '/' ∉ name) :
    components (folder ++ '/' :: name) = components folder ++ [name] := by
  rw [components, components, List.splitOn_append_cons_self, List.splitOn_eq_singleton noSlash]

/-- What stands behind a slash does not change where a path starts. -/
theorem start_append_slash (folder : Text) (noSlash : '/' ∉ name) :
    start (folder ++ '/' :: name) = start (folder ++ ['/']) ∧
      (folder ≠ [] → start (folder ++ '/' :: name) = start folder) := by
  have first : ∀ {rest : Text}, '/' ∉ rest →
      (components (folder ++ '/' :: rest)).head? = (components folder).head? := by
    intro rest noSlash
    rw [components_append_slash folder noSlash]
    exact List.head?_append_of_ne_nil _ (List.splitOn_ne_nil _ _)
  constructor
  · simp only [start, first noSlash, first List.not_mem_nil, List.head?_append, List.head?_cons]
  · intro nonempty
    rw [start, start, first noSlash, List.head?_append_of_ne_nil _ nonempty]

theorem start_name (isName : IsName name) : start name = [] := by
  have alone : components name = [name] := List.splitOn_eq_singleton isName.noSlash
  have noRoot : name.head? ≠ some '/' := fun root => isName.noSlash (List.mem_of_head? root)
  rw [start, if_neg noRoot, alone, if_neg (by simpa using isName.ne_dot)]

theorem isPart_name (isName : IsName name) : isPart name = true := by
  simp [isPart, isName.nonempty, isName.ne_dot]

theorem parts_append_name (isFront : IsFront front) (isName : IsName name) :
    parts (front ++ name) = parts front ++ [name] := by
  rcases isFront.eq_nil_or_slash with rfl | ⟨folder, rfl⟩
  · have alone : components name = [name] := List.splitOn_eq_singleton isName.noSlash
    have empty : parts [] = [] := rfl
    rw [empty, List.nil_append, List.nil_append, parts, start_name isName, alone]
    simp [isPart_name isName]
  · have here := components_append_slash folder isName.noSlash
    have before := components_append_slash folder List.not_mem_nil
    have nothing : isPart [] = false := rfl
    rw [List.append_assoc, List.singleton_append, parts, parts,
      (start_append_slash folder isName.noSlash).1, here, before]
    simp [isPart_name isName, nothing]

/-- A trail adds no part to a path that is not empty. -/
theorem parts_append_trail {path : Text} (nonempty : path ≠ []) (isTrail : IsTrail trail) :
    parts (path ++ trail) = parts path := by
  have step : ∀ {front rest : Text}, front ≠ [] → '/' ∉ rest → isPart rest = false →
      parts (front ++ '/' :: rest) = parts front := by
    intro front rest solid noSlash nothing
    rw [parts, parts, (start_append_slash front noSlash).2 solid,
      components_append_slash front noSlash]
    simp [nothing]
  induction isTrail with
  | nil => rw [List.append_nil]
  | slash more ih =>
      rw [← List.append_assoc, ← ih]
      exact step (by simp [nonempty]) List.not_mem_nil rfl
  | dot more ih =>
      rw [← List.append_assoc, ← ih]
      exact step (by simp [nonempty]) (by decide) rfl

/-- **The name is the last part**, whatever trail stands behind it. -/
theorem parts_append (isFront : IsFront front) (isName : IsName name) (isTrail : IsTrail trail) :
    parts (front ++ (name ++ trail)) = parts front ++ [name] := by
  rw [← List.append_assoc, parts_append_trail (by simp [isName.nonempty]) isTrail,
    parts_append_name isFront isName]

theorem parent?_append (isFront : IsFront front) (isName : IsName name) (isTrail : IsTrail trail) :
    parent? (front ++ (name ++ trail)) = some (parts front) := by
  have parts_eq := parts_append isFront isName isTrail
  have notRoot : parts front ++ [name] ≠ [['/']] := by
    intro root
    have last : name ∈ [['/']] := root ▸ List.mem_append_right _ (List.mem_singleton_self name)
    have noSlash := isName.noSlash
    rw [List.mem_singleton.mp last] at noSlash
    exact noSlash List.mem_cons_self
  rw [parent?, parts_eq, if_neg (by simp [notRoot]), List.dropLast_concat]

theorem fileName?_of_parts (isFront : IsFront front) (isName : IsName name)
    (isTrail : IsTrail trail) : fileName? (front ++ (name ++ trail)) = some name := by
  rw [← List.append_assoc, fileName?_append_trail isTrail, fileName?_append isFront isName]

theorem split_of_parts (isFront : IsFront front) (isName : IsName name) (isTrail : IsTrail trail) :
    split (front ++ (name ++ trail)) = (front, name) := by
  rw [← List.append_assoc, split_append_trail isTrail,
    split_append isFront isName.nonempty isName.noSlash isName.ne_dot]

end Named

/-! ### Another extension -/

section Extension

variable {front name trail extension : Text}

/-- A cut that stays within the first of two texts leaves an end of it. -/
theorem exists_dropBytes_append {count : Nat} {taken : Text} (rest : Text)
    (within : count ≤ Text.byteLength taken) :
    ∃ left, left <:+ taken ∧ dropBytes count (taken ++ rest) = left ++ rest := by
  induction taken generalizing count with
  | nil =>
      obtain rfl : count = 0 := Nat.le_zero.mp within
      exact ⟨[], List.suffix_rfl, dropBytes_zero rest⟩
  | cons c taken ih =>
      rw [List.cons_append, dropBytes]
      split
      · have less : count - c.utf8Size ≤ Text.byteLength taken := by
          simp only [Text.byteLength, List.foldr_cons] at within ⊢
          omega
        obtain ⟨left, suffix, cut⟩ := ih less
        exact ⟨left, suffix.trans (List.suffix_cons c taken), cut⟩
      · exact ⟨c :: taken, List.suffix_rfl, rfl⟩

theorem setExtension_of_parts (isFront : IsFront front) (isName : IsName name)
    (isTrail : IsTrail trail) (given : extension ≠ []) :
    setExtension (front ++ (name ++ trail)) extension =
      front ++ ((splitName name).1 ++ '.' :: extension) := by
  have isEmpty : extension.isEmpty = false := by simpa using given
  simp [setExtension, fileName?_of_parts isFront isName isTrail,
    split_of_parts isFront isName isTrail, isEmpty]

/-- A name with a stem keeps the stem when its extension is cut. -/
theorem isName_cut {stem old kept : Text} (isName : IsName (stem ++ '.' :: old))
    (nonempty : stem ≠ []) (stemmed : stem ≠ ['.']) (begins : kept <+: old) :
    IsName (stem ++ '.' :: kept) := by
  have noSlash := isName.noSlash
  simp only [List.mem_append, List.mem_cons, not_or] at noSlash
  refine ⟨by simp, ?_, ?_, ?_⟩
  · simp only [List.mem_append, List.mem_cons, not_or]
    exact ⟨noSlash.1, noSlash.2.1, fun mem => noSlash.2.2 (begins.subset mem)⟩
  · intro dot
    obtain ⟨c, more, rfl⟩ := List.exists_cons_of_ne_nil nonempty
    simp at dot
  · intro dots
    obtain ⟨c, more, rfl⟩ := List.exists_cons_of_ne_nil nonempty
    cases more with
    | nil =>
        obtain ⟨rfl, -⟩ := List.cons.inj dots
        exact stemmed rfl
    | cons d more => simp at dots

/-- **Another extension takes the place of the old one and of the trail.** As many bytes as the old
one has are cut off the end of the path; they may all belong to the trail, or go through a
character of the old extension, and the stem is left. -/
theorem withExtension_of_parts (isFront : IsFront front) (isName : IsName name)
    (isTrail : IsTrail trail) (given : extension ≠ []) (stemmed : (splitName name).1 ≠ ['.']) :
    withExtension (front ++ (name ++ trail)) extension =
      front ++ ((splitName name).1 ++ '.' :: extension) := by
  have found : extension? (front ++ (name ++ trail)) = (splitName name).2 := by
    rw [extension?, fileName?_of_parts isFront isName isTrail, Option.bind_some]
  rw [withExtension, found]
  rcases splitName_cases name with bare | ⟨stem, old, cut, nonempty, noDot, rfl⟩
  · rw [bare, Option.getD_none, show Text.byteLength [] = 0 from rfl, dropBytes_zero,
      List.reverse_reverse, setExtension_of_parts isFront isName isTrail given, bare]
  · rw [cut] at stemmed ⊢
    have backwards : (front ++ (stem ++ '.' :: old ++ trail)).reverse =
        (old ++ trail).reverse ++ (front ++ (stem ++ ['.'])).reverse := by simp
    have within : Text.byteLength old ≤ Text.byteLength (old ++ trail).reverse := by
      rw [Text.byteLength_reverse, Text.byteLength_append]
      exact Nat.le_add_right _ _
    obtain ⟨left, suffix, eq⟩ :=
      exists_dropBytes_append (front ++ (stem ++ ['.'])).reverse within
    have begins : left.reverse <+: old ++ trail := List.reverse_suffix.mp (by simpa using suffix)
    rw [Option.getD_some, backwards, eq, List.reverse_append, List.reverse_reverse]
    rcases List.prefix_or_prefix_of_prefix begins (List.prefix_append old trail) with
      inside | ⟨more, kept⟩
    · have shorter := isName_cut isName nonempty stemmed inside
      have parts := splitName_append nonempty fun mem => noDot (inside.subset mem)
      have whole := setExtension_of_parts isFront shorter .nil given
      rw [parts, List.append_nil] at whole
      simpa using whole
    · rw [← kept, List.prefix_append_right_inj] at begins
      have whole := setExtension_of_parts isFront isName (isTrail.of_prefix begins) given
      rw [cut] at whole
      rw [← kept]
      simpa using whole

end Extension

end CrossShade.Path

namespace CrossShade.Plan

open CrossShade.Path

/-! ### Planned outputs -/

section Outputs

variable {path name : Text} {stage : Stage} {plan : Plan}

/-- The output that is planned for a path whose name has a stem: the same front, the stem and the
stage's extension. -/
theorem exists_of_isStemmed (stemmed : IsStemmed path) :
    ∃ front name trail, IsFront front ∧ IsName name ∧ IsTrail trail ∧
      path = front ++ (name ++ trail) ∧
      ∀ stage, (forStage path stage).output = front ++ (outputName name stage ++ []) := by
  obtain ⟨stem, found, ne_dot⟩ := stemmed
  obtain ⟨name, named, rfl⟩ := Option.map_eq_some_iff.mp found
  obtain ⟨front, trail, isFront, isName, isTrail, rfl⟩ := exists_of_fileName? named
  refine ⟨front, name, trail, isFront, isName, isTrail, rfl, fun stage => ?_⟩
  rw [List.append_nil]
  exact withExtension_of_parts isFront isName isTrail stage.outputExtension_ne_nil ne_dot

theorem fileStem?_of_parts {front trail : Text} (isFront : IsFront front) (isName : IsName name)
    (isTrail : IsTrail trail) :
    fileStem? (front ++ (name ++ trail)) = some (splitName name).1 := by
  rw [fileStem?, fileName?_of_parts isFront isName isTrail, Option.map_some]

theorem extension?_of_parts {front trail : Text} (isFront : IsFront front) (isName : IsName name)
    (isTrail : IsTrail trail) :
    extension? (front ++ (name ++ trail)) = (splitName name).2 := by
  rw [extension?, fileName?_of_parts isFront isName isTrail, Option.bind_some]

/-- An output has the stage's extension, or no file name at all. -/
theorem extension?_output (path : Text) (stage : Stage) :
    extension? (forStage path stage).output = some stage.outputExtension ∨
      extension? (forStage path stage).output = none := by
  rw [forStage, withExtension]
  generalize (dropBytes _ path.reverse).reverse = shortened
  cases named : fileName? shortened with
  | none =>
      right
      simp only [setExtension, named, extension?, Option.bind_none]
  | some name =>
      left
      obtain ⟨front, trail, isFront, isName, isTrail, rfl⟩ := exists_of_fileName? named
      have output := extension?_of_parts isFront (isName_outputName isName stage) .nil
      rw [splitName_outputName isName, List.append_nil] at output
      rw [setExtension_of_parts isFront isName isTrail stage.outputExtension_ne_nil]
      exact output

/-- **No output is an input**: the extension of an output selects no stage. -/
theorem make_output_eq_error {given : Option Stage} (made : make path given = .ok plan) :
    make plan.output none = .error (.ofExtension plan.output) := by
  rw [eq_forStage_of_make made]
  have selectsNone : (extension? (forStage path plan.stage).output).bind Stage.ofExtension? =
      none := by
    rcases extension?_output path plan.stage with found | found
    · rw [found, Option.bind_some]
      cases plan.stage <;> rfl
    · rw [found, Option.bind_none]
  rw [make, ofPath, Stage.ofPath, selectsNone]
  rfl

/-- A name is known by its stem and its extension. -/
theorem eq_append_of_splitName {stem extension : Text}
    (cut : splitName name = (stem, some extension)) : name = stem ++ '.' :: extension := by
  rcases splitName_cases name with bare | ⟨stem', extension', cut', -, -, whole⟩
  · rw [bare] at cut
    cases cut
  · rw [cut'] at cut
    cases cut
    exact whole

/-- The outputs of two inputs have the same parts just if the inputs have. -/
theorem parts_output_eq_iff {left right : Text} {planLeft planRight : Plan}
    (stemmedLeft : IsStemmed left) (stemmedRight : IsStemmed right)
    (madeLeft : make left none = .ok planLeft) (madeRight : make right none = .ok planRight) :
    parts planLeft.output = parts planRight.output ↔ parts left = parts right := by
  -- The parts of an input and of its output, by the stem of the name and the stage.
  have both : ∀ {path plan}, IsStemmed path → make path none = .ok plan →
      ∃ folder stem, parts path = folder ++ [stem ++ '.' :: plan.stage.inputExtension] ∧
        parts plan.output = folder ++ [stem ++ '.' :: plan.stage.outputExtension] ∧
        stem ≠ [] := by
    intro path plan stemmed made
    have selected := extension?_of_make made
    obtain ⟨front, name, trail, isFront, isName, isTrail, rfl, output⟩ :=
      exists_of_isStemmed stemmed
    rw [extension?_of_parts isFront isName isTrail] at selected
    have cut : splitName name = ((splitName name).1, some plan.stage.inputExtension) :=
      Prod.ext rfl selected
    refine ⟨parts front, (splitName name).1, ?_, ?_, splitName_fst_ne_nil isName⟩
    · rw [parts_append isFront isName isTrail, ← eq_append_of_splitName cut]
    · rw [eq_forStage_of_make made, output,
        parts_append isFront (isName_outputName isName _) .nil]
      rfl
  obtain ⟨folderLeft, stemLeft, inputLeft, outputLeft, nonemptyLeft⟩ := both stemmedLeft madeLeft
  obtain ⟨folderRight, stemRight, inputRight, outputRight, nonemptyRight⟩ :=
    both stemmedRight madeRight
  rw [inputLeft, inputRight, outputLeft, outputRight]
  simp only [List.append_singleton_inj]
  refine and_congr_right fun _ => ⟨fun same => ?_, fun same => ?_⟩
  · have cut := splitName_append nonemptyLeft planLeft.stage.dot_notMem_outputExtension
    rw [same, splitName_append nonemptyRight planRight.stage.dot_notMem_outputExtension] at cut
    obtain ⟨rfl, extensions⟩ := Prod.mk.inj cut
    rw [Stage.outputExtension_inj (Option.some.inj extensions)]
  · have cut := splitName_append nonemptyLeft planLeft.stage.dot_notMem_inputExtension
    rw [same, splitName_append nonemptyRight planRight.stage.dot_notMem_inputExtension] at cut
    obtain ⟨rfl, extensions⟩ := Prod.mk.inj cut
    rw [Stage.inputExtension_inj (Option.some.inj extensions)]

end Outputs

/-- **Outputs stay beside their inputs and apart from them.** Where a path has a file name with a
stem that is no single dot, the planned output stands in the same folder, written as it was, under
the same stem and with the extension of the stage, however the path ends. Without a stage given,
outputs are the same path just if their inputs are; and no output is taken for an input. -/
theorem make_tells_apart :
    (∀ path stage plan, IsStemmed path → make path stage = .ok plan →
      parent? plan.output = parent? path ∧ (split plan.output).1 = (split path).1 ∧
        fileStem? plan.output = fileStem? path ∧
        extension? plan.output = some plan.stage.outputExtension) ∧
    (∀ left right planLeft planRight, IsStemmed left → IsStemmed right →
      make left none = .ok planLeft → make right none = .ok planRight →
      (parts planLeft.output = parts planRight.output ↔ parts left = parts right)) ∧
    ∀ path stage plan, make path stage = .ok plan →
      make plan.output none = .error (.ofExtension plan.output) := by
  refine ⟨?_, fun _ _ _ _ => parts_output_eq_iff, fun _ _ _ => make_output_eq_error⟩
  intro path stage plan stemmed made
  obtain ⟨front, name, trail, isFront, isName, isTrail, rfl, output⟩ := exists_of_isStemmed stemmed
  have isOutput := isName_outputName isName plan.stage
  have cut := splitName_outputName isName plan.stage
  rw [eq_forStage_of_make made, output]
  refine ⟨?_, ?_, ?_, ?_⟩
  · rw [parent?_append isFront isOutput .nil, parent?_append isFront isName isTrail]
  · rw [split_of_parts isFront isOutput .nil, split_of_parts isFront isName isTrail]
  · rw [fileStem?_of_parts isFront isOutput .nil, fileStem?_of_parts isFront isName isTrail, cut]
  · rw [extension?_of_parts isFront isOutput .nil, cut]
    rfl

/-- One file, written with two slashes and a trail and without them. -/
theorem make_tells_apart_sample :
    IsStemmed "a//.b.vp/.".toList ∧ IsStemmed "a/.b.vp".toList ∧
      make "a//.b.vp/.".toList none = .ok ⟨"a//.b.cgvp".toList, .vertex⟩ ∧
      make "a/.b.vp".toList none = .ok ⟨"a/.b.cgvp".toList, .vertex⟩ ∧
      parent? "a//.b.cgvp".toList = parent? "a//.b.vp/.".toList ∧
      parts "a//.b.cgvp".toList = parts "a/.b.cgvp".toList ∧
      make "a//.b.cgvp".toList none = .error (.ofExtension "a//.b.cgvp".toList) := by
  have stemmedLeft : IsStemmed "a//.b.vp/.".toList := ⟨".b".toList, rfl, by decide⟩
  have stemmedRight : IsStemmed "a/.b.vp".toList := ⟨".b".toList, rfl, by decide⟩
  have madeLeft : make "a//.b.vp/.".toList none = .ok ⟨"a//.b.cgvp".toList, .vertex⟩ := by rfl
  have madeRight : make "a/.b.vp".toList none = .ok ⟨"a/.b.cgvp".toList, .vertex⟩ := by rfl
  obtain ⟨keeps, apart, refused⟩ := make_tells_apart
  exact ⟨stemmedLeft, stemmedRight, madeLeft, madeRight,
    (keeps _ _ _ stemmedLeft madeLeft).1,
    (apart _ _ _ _ stemmedLeft stemmedRight madeLeft madeRight).mpr (by decide),
    refused _ _ _ madeLeft⟩

end CrossShade.Plan
