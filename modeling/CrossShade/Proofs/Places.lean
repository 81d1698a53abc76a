import CrossShade.Proofs.FileNames
import CrossShade.Volume

/-!
What reading and writing files depend on, and what they change. A path leads through folders
to a place; writing puts a file there and leaves every other place as it was. No folder comes
or goes, so what a path leads to stays the same whatever has been written.

* `read_append_eq_ok_iff`, `write_append_eq_ok_iff`: when a file is read and written.
* `SameFolders`: two file systems with the same folders, in which all paths lead alike.
* `sameFolders_set`: writing keeps the folders.
-/

namespace CrossShade.Volume

open CrossShade.Path
open Utf8 (Bytes)

variable {volume other : Volume} {front name : Text} {place : Location} {contents : Bytes}

/-! ### Nodes -/

theorem lookup_filter_ne (nodes : List (Location × Node)) {asked : Location}
    (differs : asked ≠ place) :
    (nodes.filter (·.1 != place)).lookup asked = nodes.lookup asked := by
  induction nodes with
  | nil => rfl
  | cons entry nodes ih =>
      obtain ⟨found, node⟩ := entry
      by_cases here : found = place
      · subst here
        have unequal : (asked == found) = false := by simpa using differs
        simp [List.lookup_cons, unequal, ih]
      · simp [here, List.lookup_cons, ih]

theorem node?_set (inside : place ≠ []) (node : Node) (asked : Location) :
    (volume.set place node).node? asked = if asked = place then some node else volume.node? asked := by
  by_cases here : asked = place
  · subst here
    simp [node?, set, inside]
  · have unequal : (asked == place) = false := by simpa using here
    simp [node?, set, List.lookup_cons, unequal, here, lookup_filter_ne volume.nodes here]

/-! ### Where a path leads -/

theorem walk_append (volume : Volume) (place : Location) (first second : List Text) :
    volume.walk place (first ++ second) =
      volume.walk place first >>= fun reached => volume.walk reached second := by
  induction first generalizing place with
  | nil => rfl
  | cons component first ih =>
      simp only [List.cons_append, walk, ih]
      cases volume.enter place <;> rfl

theorem eq_foldl_of_walk {components : List Text} {reached : Location}
    (walked : volume.walk place components = .ok reached) :
    reached = components.foldl step place := by
  induction components generalizing place with
  | nil =>
      cases walked
      rfl
  | cons component components ih =>
      obtain ⟨_, -, rest⟩ := bind_eq_ok_iff.mp walked
      exact ih rest

theorem enter_eq_ok_iff : volume.enter place = .ok () ↔ volume.node? place = some .directory := by
  unfold enter
  split <;> simp_all

/-- The folder that a front names. -/
def folder (volume : Volume) (front : Text) : Location :=
  (components front).dropLast.foldl step (volume.start front)

/-- The front leads through folders to a folder. -/
def Opens (volume : Volume) (front : Text) : Prop :=
  volume.walk (volume.start front) (components front).dropLast = .ok (volume.folder front) ∧
    volume.node? (volume.folder front) = some .directory

theorem start_append (noSlash : '/' ∉ name) :
    volume.start (front ++ name) = volume.start front := by
  cases front with
  | cons c front => rfl
  | nil =>
      cases name with
      | nil => rfl
      | cons c name =>
          have ne : c ≠ '/' := by
            rintro rfl
            exact noSlash List.mem_cons_self
          simp [start, ne]

theorem place_append (isFront : IsFront front) (noSlash : '/' ∉ name) :
    volume.place (front ++ name) = step (volume.folder front) name := by
  simp [Volume.place, folder, components_append isFront noSlash, start_append noSlash]

theorem step_name (isName : IsName name) (place : Location) : step place name = name :: place := by
  simp [step, isName.nonempty, isName.ne_dot, isName.ne_dots]

theorem walk_append_eq_ok_iff (isFront : IsFront front) (noSlash : '/' ∉ name)
    {reached : Location} :
    volume.walk (volume.start (front ++ name)) (components (front ++ name)) = .ok reached ↔
      volume.Opens front ∧ reached = volume.place (front ++ name) := by
  rw [start_append noSlash, components_append isFront noSlash, walk_append,
    place_append isFront noSlash]
  constructor
  · intro walked
    obtain ⟨inner, entered, rest⟩ := bind_eq_ok_iff.mp walked
    obtain rfl : inner = volume.folder front := eq_foldl_of_walk entered
    obtain ⟨_, isFolder, stepped⟩ := bind_eq_ok_iff.mp rest
    exact ⟨⟨entered, enter_eq_ok_iff.mp isFolder⟩, (Except.ok.inj stepped).symm⟩
  · rintro ⟨⟨entered, isFolder⟩, rfl⟩
    exact bind_eq_ok_iff.mpr ⟨_, entered, bind_eq_ok_iff.mpr ⟨(), enter_eq_ok_iff.mpr isFolder, rfl⟩⟩

/-! ### Reading and writing -/

theorem read_append_eq_ok_iff (isFront : IsFront front) (noSlash : '/' ∉ name) :
    volume.read (front ++ name) = .ok contents ↔
      front ++ name ≠ [] ∧ volume.Opens front ∧
        volume.node? (volume.place (front ++ name)) = some (.file contents) := by
  by_cases empty : front ++ name = []
  · simp [read, empty]
  · have isEmpty : (front ++ name).isEmpty = false := by simpa using empty
    simp only [read, isEmpty, Bool.false_eq_true, if_false, ne_eq, empty, not_false_eq_true,
      true_and, bind_eq_ok_iff, walk_append_eq_ok_iff isFront noSlash]
    constructor
    · rintro ⟨_, ⟨opens, rfl⟩, found⟩
      split at found <;> simp_all
    · rintro ⟨opens, isFile⟩
      exact ⟨_, ⟨opens, rfl⟩, by rw [isFile]⟩

/-- What is read as a file has a last component, and that is not a single dot. -/
theorem name_of_read (isFront : IsFront front) (noSlash : '/' ∉ name)
    (present : volume.read (front ++ name) = .ok contents) : name ≠ [] ∧ name ≠ ['.'] := by
  obtain ⟨-, ⟨-, isFolder⟩, isFile⟩ := (read_append_eq_ok_iff isFront noSlash).mp present
  rw [place_append isFront noSlash] at isFile
  -- Both would lead to the folder itself, which is no file.
  constructor
  · rintro rfl
    simp [step, isFolder] at isFile
  · rintro rfl
    simp [step, isFolder] at isFile

/-- A file is written in the folder of its front. -/
theorem write_append (isFront : IsFront front) (nonempty : name ≠ []) (noSlash : '/' ∉ name) :
    volume.write (front ++ name) contents = (do
      let parent ← volume.walk (volume.start front) (components front).dropLast
      volume.enter parent
      if name = ['.'] ∨ name = ['.', '.'] then .error .isADirectory
      else
        match volume.node? (name :: parent) with
        | some .directory => .error .isADirectory
        | _ => .ok (volume.set (name :: parent) (.file contents))) := by
  have isEmpty : (front ++ name).isEmpty = false := by simp [nonempty]
  have filled : name.isEmpty = false := by simpa using nonempty
  have ends : (front ++ name).getLast? ≠ some '/' := by
    rw [List.getLast?_append_of_ne_nil front nonempty]
    exact fun slash => noSlash (List.mem_of_getLast? slash)
  have reversed : (components (front ++ name)).reverse.dropWhile List.isEmpty =
      name :: (components front).dropLast.reverse := by
    simp [components_append isFront noSlash, filled]
  simp only [write, isEmpty, reversed, start_append noSlash, List.reverse_reverse, ends, false_or,
    Bool.false_eq_true, if_false]
  rfl

theorem write_append_eq_ok_iff (isFront : IsFront front) (isName : IsName name) {after : Volume} :
    volume.write (front ++ name) contents = .ok after ↔
      volume.Opens front ∧
        volume.node? (volume.place (front ++ name)) ≠ some .directory ∧
          after = volume.set (volume.place (front ++ name)) (.file contents) := by
  rw [write_append isFront isName.nonempty isName.noSlash, place_append isFront isName.noSlash,
    step_name isName]
  simp only [isName.ne_dot, isName.ne_dots, or_self, if_false, bind_eq_ok_iff]
  constructor
  · rintro ⟨inner, entered, _, isFolder, written⟩
    obtain rfl : inner = volume.folder front := eq_foldl_of_walk entered
    split at written
    · cases written
    · next noFolder =>
        exact ⟨⟨entered, enter_eq_ok_iff.mp isFolder⟩, noFolder, (Except.ok.inj written).symm⟩
  · rintro ⟨⟨entered, isFolder⟩, noFolder, rfl⟩
    refine ⟨_, entered, (), enter_eq_ok_iff.mpr isFolder, ?_⟩
    split
    · next found => exact absurd found noFolder
    · rfl

/-- Two dots can only mean a folder. -/
theorem write_dots_ne_ok (isFront : IsFront front) (contents : Bytes) (after : Volume) :
    volume.write (front ++ ['.', '.']) contents ≠ .ok after := by
  rw [write_append isFront (by simp) (by decide)]
  simp [bind_eq_ok_iff]

/-! ### The same folders -/

/-- Two file systems have the same folders and the same working directory. -/
structure SameFolders (volume other : Volume) : Prop where
  current : other.current = volume.current
  directory_iff : ∀ place, other.node? place = some .directory ↔ volume.node? place = some .directory

namespace SameFolders

theorem refl (volume : Volume) : SameFolders volume volume :=
  ⟨rfl, fun _ => Iff.rfl⟩

theorem symm (same : SameFolders volume other) : SameFolders other volume :=
  ⟨same.current.symm, fun place => (same.directory_iff place).symm⟩

theorem trans {third : Volume} (first : SameFolders volume other) (second : SameFolders other third) :
    SameFolders volume third :=
  ⟨second.current.trans first.current,
    fun place => (second.directory_iff place).trans (first.directory_iff place)⟩

theorem start_eq (same : SameFolders volume other) (path : Text) :
    other.start path = volume.start path := by
  rw [start, start, same.current]

theorem folder_eq (same : SameFolders volume other) (front : Text) :
    other.folder front = volume.folder front := by
  rw [folder, folder, same.start_eq]

theorem place_eq (same : SameFolders volume other) (path : Text) :
    other.place path = volume.place path := by
  rw [Volume.place, Volume.place, same.start_eq]

theorem walk_eq_ok_iff (same : SameFolders volume other) {components : List Text}
    {reached : Location} :
    other.walk place components = .ok reached ↔ volume.walk place components = .ok reached := by
  induction components generalizing place with
  | nil => rfl
  | cons component components ih =>
      have entered : other.enter place = .ok () ↔ volume.enter place = .ok () := by
        rw [enter_eq_ok_iff, enter_eq_ok_iff, same.directory_iff]
      simp only [walk, bind_eq_ok_iff, ih, entered]

theorem opens_iff (same : SameFolders volume other) (front : Text) :
    other.Opens front ↔ volume.Opens front := by
  rw [Opens, Opens, same.start_eq, same.folder_eq, same.walk_eq_ok_iff, same.directory_iff]

/-- A file that is at the place of a path in both is read in both. -/
theorem read_eq_ok_iff (same : SameFolders volume other) {path : Text}
    (kept : other.node? (volume.place path) = volume.node? (volume.place path)) :
    other.read path = .ok contents ↔ volume.read path = .ok contents := by
  obtain ⟨front, name, isFront, noSlash, rfl⟩ := exists_front path
  rw [read_append_eq_ok_iff isFront noSlash, read_append_eq_ok_iff isFront noSlash,
    same.opens_iff, same.place_eq, kept]

end SameFolders

theorem sameFolders_set (inside : place ≠ []) (noFolder : volume.node? place ≠ some .directory)
    (contents : Bytes) : SameFolders volume (volume.set place (.file contents)) := by
  refine ⟨rfl, fun asked => ?_⟩
  rw [node?_set inside]
  split
  · next here => simp [here, noFolder]
  · rfl

end CrossShade.Volume
