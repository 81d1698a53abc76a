import Mathlib.Data.List.Infix
import Mathlib.Data.List.TakeWhile
import CrossShade.Plan

/-!
The file name at the end of a path. A path is a front, which is empty or ends in a slash, and
a name without slashes behind it. Planning keeps the front and puts another name in place of
the old one.

* `exists_front`: every path is a front and a name.
* `components_append`: the name is the last component.
* `withExtension_append`: another extension changes the name and leaves the front.
* `Plan.forStage_output`: a planned output is a name with the stage's extension in the folder
  of the input, or else it ends in two dots and is no file name at all.
-/

namespace CrossShade.Text

theorem byteLength_append (front back : Text) :
    byteLength (front ++ back) = byteLength front + byteLength back := by
  induction front with
  | nil => simp [byteLength]
  | cons c front ih =>
      simp only [byteLength, List.cons_append, List.foldr_cons] at ih ⊢
      omega

theorem byteLength_reverse (text : Text) : byteLength text.reverse = byteLength text := by
  induction text with
  | nil => rfl
  | cons c text ih =>
      rw [List.reverse_cons, byteLength_append, ih]
      simp [byteLength, Nat.add_comm]

end CrossShade.Text

namespace CrossShade.Path

/-- What may stand before a name: nothing, or text that ends in a slash. -/
def IsFront (front : Text) : Prop :=
  ∀ c ∈ front.getLast?, c = '/'

/-- A component that is the name of something in a folder, not the folder itself or the one
around it. -/
structure IsName (name : Text) : Prop where
  nonempty : name ≠ []
  noSlash : '/' ∉ name
  ne_dot : name ≠ ['.']
  ne_dots : name ≠ ['.', '.']

section Front

variable {front name : Text}

theorem isFront_nil : IsFront [] := by
  simp [IsFront]

theorem IsFront.eq_nil_or_slash (isFront : IsFront front) :
    front = [] ∨ ∃ folder, front = folder ++ ['/'] := by
  rcases List.eq_nil_or_concat front with empty | ⟨folder, c, rfl⟩
  · exact Or.inl empty
  · obtain rfl : c = '/' := isFront c (by simp)
    exact Or.inr ⟨folder, List.concat_eq_append⟩

theorem exists_front (path : Text) :
    ∃ front name, IsFront front ∧ '/' ∉ name ∧ path = front ++ name := by
  induction path with
  | nil => exact ⟨[], [], isFront_nil, by simp, rfl⟩
  | cons c path ih =>
      obtain ⟨front, name, isFront, noSlash, rfl⟩ := ih
      cases front with
      | cons d front =>
          refine ⟨c :: d :: front, name, ?_, noSlash, rfl⟩
          intro e last
          exact isFront e (by simpa [List.getLast?_cons_cons] using last)
      | nil =>
          by_cases slash : c = '/'
          · subst slash
            exact ⟨['/'], name, by simp [IsFront], noSlash, rfl⟩
          · refine ⟨[], c :: name, isFront_nil, ?_, rfl⟩
            simp only [List.mem_cons, not_or]
            exact ⟨fun same => slash same.symm, noSlash⟩

theorem components_append (isFront : IsFront front) (noSlash : '/' ∉ name) :
    components (front ++ name) = (components front).dropLast ++ [name] := by
  rcases isFront.eq_nil_or_slash with rfl | ⟨folder, rfl⟩
  · simp [components, List.splitOn_eq_singleton noSlash, List.splitOn_nil]
  · simp only [components, List.append_assoc, List.singleton_append]
    rw [List.splitOn_append_cons_self, List.splitOn_append_cons_self,
      List.splitOn_eq_singleton noSlash, List.splitOn_nil, List.dropLast_concat]

end Front

/-! ### The name of a path -/

section Name

variable {front name : Text}

theorem dropTrailing_of_name (nonempty : name ≠ []) (noSlash : '/' ∉ name)
    (ne_dot : name ≠ ['.']) (front : Text) :
    dropTrailing (name.reverse ++ front) = name.reverse ++ front := by
  cases reversed : name.reverse with
  | nil => exact absurd (List.reverse_eq_nil_iff.mp reversed) nonempty
  | cons c more =>
      have ne_slash : ∀ d ∈ c :: more, d ≠ '/' := by
        rintro d mem rfl
        rw [← reversed, List.mem_reverse] at mem
        exact noSlash mem
      cases more with
      | nil =>
          have ne : c ≠ '.' := by
            rintro rfl
            rw [List.reverse_eq_iff] at reversed
            exact ne_dot reversed
          have := ne_slash c
          simp_all [dropTrailing]
      | cons d more =>
          have := ne_slash c
          have := ne_slash d
          simp_all [dropTrailing]

theorem split_append (isFront : IsFront front) (nonempty : name ≠ []) (noSlash : '/' ∉ name)
    (ne_dot : name ≠ ['.']) : split (front ++ name) = (front, name) := by
  have kept : ∀ c ∈ name.reverse, (c != '/') = true := by
    intro c mem
    rw [List.mem_reverse] at mem
    simp only [bne_iff_ne]
    rintro rfl
    exact noSlash mem
  have stops : front.reverse.dropWhile (· != '/') = front.reverse ∧
      front.reverse.takeWhile (· != '/') = [] := by
    rcases isFront.eq_nil_or_slash with rfl | ⟨folder, rfl⟩ <;> simp
  simp only [split, List.reverse_append, dropTrailing_of_name nonempty noSlash ne_dot,
    List.dropWhile_append_of_pos kept, List.takeWhile_append_of_pos kept, stops]
  simp

theorem fileName?_append (isFront : IsFront front) (isName : IsName name) :
    fileName? (front ++ name) = some name := by
  simp [fileName?, split_append isFront isName.nonempty isName.noSlash isName.ne_dot,
    isName.nonempty, isName.ne_dots]

theorem fileName?_dots (isFront : IsFront front) : fileName? (front ++ ['.', '.']) = none := by
  simp [fileName?, split_append isFront (by decide) (by decide : '/' ∉ ['.', '.']) (by decide)]

end Name

/-! ### Stem and extension -/

section Extension

variable {front name stem extension : Text}

theorem splitName_append (nonempty : stem ≠ []) (noDot : '.' ∉ extension) :
    splitName (stem ++ '.' :: extension) = (stem, some extension) := by
  have kept : ∀ c ∈ extension.reverse, (c != '.') = true := by
    intro c mem
    rw [List.mem_reverse] at mem
    simp only [bne_iff_ne]
    rintro rfl
    exact noDot mem
  cases reversed : stem.reverse with
  | nil => exact absurd (List.reverse_eq_nil_iff.mp reversed) nonempty
  | cons c more =>
      have stem_eq : stem = (c :: more).reverse := List.reverse_eq_iff.mp reversed
      simp only [splitName, List.reverse_append, List.reverse_cons, List.append_assoc,
        List.singleton_append, reversed, List.dropWhile_append_of_pos kept,
        List.takeWhile_append_of_pos kept]
      simp [stem_eq]

/-- A name is its own stem, or it is put together from a stem and an extension. -/
theorem splitName_cases (name : Text) :
    splitName name = (name, none) ∨
      ∃ stem extension, splitName name = (stem, some extension) ∧ stem ≠ [] ∧
        '.' ∉ extension ∧ name = stem ++ '.' :: extension := by
  by_cases dotted : ∃ stem extension, stem ≠ [] ∧ '.' ∉ extension ∧ name = stem ++ '.' :: extension
  · obtain ⟨stem, extension, nonempty, noDot, rfl⟩ := dotted
    exact Or.inr ⟨stem, extension, splitName_append nonempty noDot, nonempty, noDot, rfl⟩
  · left
    have whole := List.takeWhile_append_dropWhile (p := (· != '.')) (l := name.reverse)
    simp only [splitName]
    split
    · next stem c more rest =>
        rw [rest] at whole
        have joined : name = (c :: more).reverse ++
            '.' :: (name.reverse.takeWhile (· != '.')).reverse := by
          have := congrArg List.reverse whole
          simpa using this.symm
        refine absurd ⟨_, _, by simp, ?_, joined⟩ dotted
        intro mem
        have := List.mem_takeWhile_imp (List.mem_reverse.mp mem)
        simp at this
    · rfl

theorem extension?_append (isFront : IsFront front) (isName : IsName name) :
    extension? (front ++ name) = (splitName name).2 := by
  simp [extension?, fileName?_append isFront isName]

theorem dropBytes_append (taken rest : Text) :
    dropBytes (Text.byteLength taken) (taken ++ rest) = rest := by
  induction taken with
  | nil =>
      cases rest with
      | nil => rfl
      | cons c rest =>
          have wide := c.utf8Size_pos
          simp [Text.byteLength, dropBytes, Nat.not_le.mpr wide]
  | cons c taken ih =>
      simp only [Text.byteLength, List.foldr_cons, List.cons_append, dropBytes] at ih ⊢
      simp [ih]

theorem dropBytes_zero (text : Text) : dropBytes 0 text = text :=
  dropBytes_append [] text

theorem setExtension_append (isFront : IsFront front) (isName : IsName name)
    (given : extension ≠ []) :
    setExtension (front ++ name) extension = front ++ ((splitName name).1 ++ '.' :: extension) := by
  have isEmpty : extension.isEmpty = false := by simpa using given
  simp [setExtension, fileName?_append isFront isName,
    split_append isFront isName.nonempty isName.noSlash isName.ne_dot, isEmpty]

/-- **Another extension changes the name only.** The old extension is cut off first, and a name
of two dots and an extension has nothing left to extend then. -/
theorem withExtension_append (isFront : IsFront front) (isName : IsName name)
    (given : extension ≠ []) :
    withExtension (front ++ name) extension =
      front ++ if (splitName name).1 = ['.'] then ['.', '.']
        else (splitName name).1 ++ '.' :: extension := by
  rcases splitName_cases name with bare | ⟨stem, old, parts, nonempty, noDot, rfl⟩
  · simp only [withExtension, extension?_append isFront isName, bare, Option.getD_none,
      Text.byteLength, List.foldr_nil, dropBytes_zero, List.reverse_reverse, if_neg isName.ne_dot]
    rw [setExtension_append isFront isName given, bare]
  · have cut : dropBytes (Text.byteLength old) (front ++ (stem ++ '.' :: old)).reverse =
        (front ++ (stem ++ ['.'])).reverse := by
      have := dropBytes_append old.reverse (front ++ (stem ++ ['.'])).reverse
      rw [Text.byteLength_reverse] at this
      simpa using this
    simp only [withExtension, extension?_append isFront isName, parts, Option.getD_some, cut,
      List.reverse_reverse]
    by_cases dots : stem = ['.']
    · subst dots
      simp [setExtension, fileName?_dots isFront]
    · have noSlash := isName.noSlash
      simp only [List.mem_append, List.mem_cons, not_or] at noSlash
      have isStem : IsName (stem ++ ['.']) :=
        ⟨by simp, by simpa using noSlash.1, by simpa using nonempty, by
          intro same
          exact dots (List.append_cancel_right (same : stem ++ ['.'] = ['.'] ++ ['.']))⟩
      rw [if_neg dots, setExtension_append isFront isStem given,
        splitName_append nonempty (by simp)]

/-- A path that ends in two dots has no file name to change. -/
theorem withExtension_dots (isFront : IsFront front) (extension : Text) :
    withExtension (front ++ ['.', '.']) extension = front ++ ['.', '.'] := by
  simp only [withExtension, extension?, fileName?_dots isFront, Option.bind_none, Option.getD_none,
    Text.byteLength, List.foldr_nil, dropBytes_zero, List.reverse_reverse, setExtension]

end Extension

end CrossShade.Path

namespace CrossShade

namespace Stage

theorem outputExtension_ne_nil (stage : Stage) : stage.outputExtension ≠ [] := by
  cases stage <;> decide

theorem slash_notMem_outputExtension (stage : Stage) : '/' ∉ stage.outputExtension := by
  cases stage <;> decide

theorem dot_notMem_outputExtension (stage : Stage) : '.' ∉ stage.outputExtension := by
  cases stage <;> decide

theorem outputExtension_inj {left right : Stage}
    (same : left.outputExtension = right.outputExtension) : left = right := by
  cases left <;> cases right <;> first | rfl | cases same

theorem dot_notMem_inputExtension (stage : Stage) : '.' ∉ stage.inputExtension := by
  cases stage <;> decide

theorem inputExtension_inj {left right : Stage}
    (same : left.inputExtension = right.inputExtension) : left = right := by
  cases left <;> cases right <;> first | rfl | cases same

theorem inputExtension_ne_outputExtension (input output : Stage) :
    input.inputExtension ≠ output.outputExtension := by
  cases input <;> cases output <;> decide

theorem eq_inputExtension_of_ofExtension? {extension : Text} {stage : Stage}
    (found : ofExtension? extension = some stage) : extension = stage.inputExtension := by
  unfold ofExtension? at found
  split at found
  · next same => cases found; exact same
  · split at found
    · next same => cases found; exact same
    · cases found

end Stage

namespace Plan

open CrossShade.Path

/-- The name that a conversion for the stage gives its output. -/
def outputName (name : Text) (stage : Stage) : Text :=
  (splitName name).1 ++ '.' :: stage.outputExtension

variable {front name : Text}

theorem splitName_fst_ne_nil (isName : IsName name) : (splitName name).1 ≠ [] := by
  rcases splitName_cases name with bare | ⟨stem, extension, parts, nonempty, -, -⟩
  · rw [bare]
    exact isName.nonempty
  · rw [parts]
    exact nonempty

theorem splitName_outputName (isName : IsName name) (stage : Stage) :
    splitName (outputName name stage) = ((splitName name).1, some stage.outputExtension) :=
  splitName_append (splitName_fst_ne_nil isName) stage.dot_notMem_outputExtension

theorem isName_outputName (isName : IsName name) (stage : Stage) :
    IsName (outputName name stage) := by
  have parts := splitName_outputName isName stage
  refine ⟨by simp [outputName], ?_, ?_, ?_⟩
  · have noSlash : '/' ∉ (splitName name).1 := by
      rcases splitName_cases name with bare | ⟨stem, extension, parts, -, -, rfl⟩
      · rw [bare]
        exact isName.noSlash
      · rw [parts]
        exact fun mem => isName.noSlash (List.mem_append_left _ mem)
    simp [outputName, noSlash, stage.slash_notMem_outputExtension]
  · intro same
    rw [same] at parts
    simp [splitName] at parts
  · intro same
    rw [same] at parts
    exact stage.outputExtension_ne_nil (by simpa [splitName] using congrArg Prod.snd parts)

/-- **A planned output stands in the folder of its input**, under a name with the stage's
extension, or it is no file name at all. -/
theorem forStage_output (isFront : IsFront front) (isName : IsName name) (stage : Stage) :
    (forStage (front ++ name) stage).output = front ++ ['.', '.'] ∨
      (forStage (front ++ name) stage).output = front ++ outputName name stage := by
  rw [forStage, withExtension_append isFront isName stage.outputExtension_ne_nil]
  split
  · exact Or.inl rfl
  · exact Or.inr rfl

/-- A plan is made for the stage that is given, or else for the one of the extension. -/
theorem eq_forStage_of_make {path : Text} {stage : Option Stage} {plan : Plan}
    (made : make path stage = .ok plan) : plan = forStage path plan.stage := by
  cases stage with
  | some stage =>
      cases made
      rfl
  | none =>
      simp only [make, ofPath] at made
      cases found : Stage.ofPath path with
      | error fault => simp [found, Except.map] at made
      | ok stage =>
          simp only [found, Except.map, Except.ok.injEq] at made
          subst made
          rfl

theorem stage_of_make {path : Text} {stage : Option Stage} {plan : Plan}
    (made : make path stage = .ok plan) : stage = none ∨ stage = some plan.stage := by
  cases stage with
  | none => exact Or.inl rfl
  | some stage =>
      cases made
      exact Or.inr rfl

theorem extension?_of_make {path : Text} {plan : Plan} (made : make path none = .ok plan) :
    extension? path = some plan.stage.inputExtension := by
  simp only [make, ofPath, Stage.ofPath] at made
  split at made
  · next stage found =>
      simp only [Except.map, Except.ok.injEq] at made
      subst made
      obtain ⟨extension, given, selected⟩ := Option.bind_eq_some_iff.mp found
      rw [given, Stage.eq_inputExtension_of_ofExtension? selected]
      rfl
  · simp [Except.map] at made

end Plan

end CrossShade
