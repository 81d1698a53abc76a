import CrossShade.Proofs.Memory

/-!
Edits of a text, made from left to right. A finder looks at one place and says whether something is
to be replaced there, by what, and where the text goes on; what it does not replace stays.

* `Finder.Proper.byPlaces`: induction along the places that an edit comes to.
* `edit_append`: where what is found on one side of a cut does not depend on the other, each side is
  edited by itself.
* `replaceAll_eq_edit`: replacing the matches of a pattern is the edit by a finder that tells the
  first match at a place.
-/

namespace CrossShade.Text

/-- From the character in front of a place and the text behind it: the value that replaces the start
of the text, and what is left of the text then. -/
abbrev Finder := Option Char → Text → Option (Text × Text)

/-- Edit a text by a finder. `before` is the character in front of the text, and the first `skip`
characters belong to something that is already replaced. -/
def editFrom (find : Finder) : Option Char → Nat → Text → Text
  | _, _, [] => []
  | _, skip + 1, c :: rest => editFrom find (some c) skip rest
  | before, 0, c :: rest =>
      match find before (c :: rest) with
      | none => c :: editFrom find (some c) 0 rest
      | some (value, behind) => value ++ editFrom find (some c) (rest.length - behind.length) rest

/-- The text behind the character `before` with everything replaced that the finder finds, from the
left; the search goes on behind what it has found. -/
def edit (find : Finder) (before : Option Char) (text : Text) : Text :=
  editFrom find before 0 text

/-- What is replaced stands at the start of the text and is not empty. -/
def Finder.Proper (find : Finder) : Prop :=
  ∀ ⦃before text value behind⦄, find before text = some (value, behind) →
    ∃ taken, taken ≠ [] ∧ text = taken ++ behind

theorem Finder.Proper.length_lt {find : Finder} (proper : find.Proper) {before : Option Char}
    {text value behind : Text} (found : find before text = some (value, behind)) :
    behind.length < text.length := by
  obtain ⟨taken, nonempty, rfl⟩ := proper found
  have positive := List.length_pos_iff.mpr nonempty
  rw [List.length_append]
  omega

section Edits

variable {find : Finder} {before : Option Char} {c : Char} {text rest taken behind value : Text}

@[simp] theorem edit_nil : edit find before [] = [] := rfl

theorem edit_of_none (none : find before (c :: rest) = none) :
    edit find before (c :: rest) = c :: edit find (some c) rest := by
  rw [edit, editFrom, none]
  rfl

theorem editFrom_append (front : Text) :
    editFrom find before front.length (front ++ text) =
      edit find (front.getLast?.or before) text := by
  induction front generalizing before with
  | nil => rfl
  | cons c front ih =>
      rw [List.length_cons, List.cons_append, editFrom, ih, List.getLast?_cons]
      cases front.getLast? <;> rfl

/-- What is found is replaced, and the search goes on behind it. -/
theorem edit_of_some (found : find before (taken ++ behind) = some (value, behind))
    (nonempty : taken ≠ []) :
    edit find before (taken ++ behind) = value ++ edit find taken.getLast? behind := by
  obtain ⟨c, more, rfl⟩ := List.exists_cons_of_ne_nil nonempty
  have length : (more ++ behind).length - behind.length = more.length := by simp
  rw [List.cons_append] at found ⊢
  rw [edit, editFrom, found]
  dsimp only
  rw [length, editFrom_append, List.getLast?_cons]
  cases more.getLast? <;> rfl

/-- Only the first place of a text sees what stands in front of it. -/
theorem edit_congr_start {other : Option Char} (same : find before text = find other text) :
    edit find before text = edit find other text := by
  cases text with
  | nil => rfl
  | cons c rest => rw [edit, edit, editFrom, editFrom, same]

end Edits

/-- Induction along the places that an edit comes to. -/
@[elab_as_elim]
theorem Finder.Proper.byPlaces {find : Finder} (proper : find.Proper)
    {motive : Option Char → Text → Prop} (done : ∀ before, motive before [])
    (kept : ∀ before c rest, find before (c :: rest) = none → motive (some c) rest →
      motive before (c :: rest))
    (found : ∀ before taken value behind, taken ≠ [] →
      find before (taken ++ behind) = some (value, behind) → motive taken.getLast? behind →
      motive before (taken ++ behind))
    (before : Option Char) (text : Text) : motive before text := by
  induction text using (measure List.length).wf.induction generalizing before with
  | h text ih =>
      cases text with
      | nil => exact done before
      | cons c rest =>
          cases here : find before (c :: rest) with
          | none => exact kept before c rest here (ih rest (Nat.lt_succ_self _) _)
          | some result =>
              obtain ⟨value, behind⟩ := result
              have shorter := proper.length_lt here
              obtain ⟨taken, nonempty, whole⟩ := proper here
              rw [whole] at here ih shorter ⊢
              exact found before taken value behind nonempty here (ih behind shorter _)

/-- What is found from the places of `front` on is the same whether `back` follows or not. -/
def Finder.Ends (find : Finder) (front back : Text) : Prop :=
  ∀ before place, place ≠ [] → place <:+ front →
    find before (place ++ back) =
      (find before place).map fun result => (result.1, result.2 ++ back)

theorem Finder.Ends.of_suffix {find : Finder} {front later back : Text}
    (ends : find.Ends front back) (suffix : later <:+ front) : find.Ends later back :=
  fun before place nonempty inside => ends before place nonempty (inside.trans suffix)

/-- **An edit is local**: the two sides of a cut are edited by themselves, if nothing that is found
on the first depends on the second. -/
theorem edit_append {find : Finder} (proper : find.Proper) {front back : Text}
    (ends : find.Ends front back) (before : Option Char) :
    edit find before (front ++ back) =
      edit find before front ++ edit find (front.getLast?.or before) back := by
  induction before, front using proper.byPlaces with
  | done before => rfl
  | kept before c rest none ih =>
      have whole : c :: rest <:+ c :: rest := List.suffix_rfl
      have here := ends before (c :: rest) (List.cons_ne_nil c rest) whole
      rw [none, Option.map_none, List.cons_append] at here
      rw [List.cons_append, edit_of_none here, edit_of_none none,
        ih (ends.of_suffix (List.suffix_cons c rest)), List.cons_append, List.getLast?_cons]
      cases rest.getLast? <;> rfl
  | found before taken value behind nonempty found ih =>
      have whole : taken ++ behind <:+ taken ++ behind := List.suffix_rfl
      have here := ends before (taken ++ behind) (by simp [nonempty]) whole
      rw [found, Option.map_some, List.append_assoc] at here
      have last : taken.getLast?.or before = taken.getLast? :=
        Option.or_of_isSome (by simpa using nonempty)
      rw [List.append_assoc, edit_of_some here nonempty, edit_of_some found nonempty,
        ih (ends.of_suffix (List.suffix_append taken behind)), List.append_assoc,
        List.getLast?_append, Option.or_assoc, last]

end CrossShade.Text

namespace CrossShade.Pattern

/-- The finder tells the first match at each place: the value of the match, and what the match
leaves of the text. -/
structure Finds (regex : Regex) (value : Match → Text) (find : Text.Finder) : Prop where
  none : ∀ {cursor : Cursor}, find cursor.before cursor.rest = none → regex.first cursor = none
  some : ∀ {cursor : Cursor} {result behind},
    find cursor.before cursor.rest = some (result, behind) →
    ∃ taken captures, taken ≠ [] ∧ cursor.rest = taken ++ behind ∧
      regex.first cursor = some ⟨cursor.advance taken behind, captures⟩ ∧
      result = value ⟨taken, captures⟩

section Finds

variable {regex : Regex} {value : Match → Text} {find : Text.Finder}

theorem Finds.proper (finds : Finds regex value find) : find.Proper := by
  intro before text result behind found
  have here : find (Cursor.mk 0 before text).before (Cursor.mk 0 before text).rest =
      .some (result, behind) := found
  obtain ⟨taken, captures, nonempty, whole, -⟩ := finds.some here
  exact ⟨taken, nonempty, whole⟩

theorem Finds.flatMap_firstPieces (finds : Finds regex value find) (text : Text) (skip : Nat)
    (closed : Bool) {cursor : Cursor} (here : cursor.rest = text) :
    (regex.firstPieces skip closed cursor text).flatMap (Piece.replaced value) =
      Text.editFrom find cursor.before skip text := by
  induction text generalizing skip closed cursor with
  | nil =>
      cases skip with
      | succ skip => rfl
      | zero =>
          have nothing : find cursor.before cursor.rest = .none := by
            rw [here]
            cases found : find cursor.before [] with
            | none => rfl
            | some result =>
                obtain ⟨taken, nonempty, whole⟩ := finds.proper found
                exact absurd (List.append_eq_nil_iff.mp whole.symm).1 nonempty
          rw [Regex.firstPieces, finds.none nothing]
          rfl
  | cons c rest ih =>
      cases skip with
      | succ skip => exact ih skip true rfl
      | zero =>
          rw [Regex.firstPieces, Text.editFrom, ← here]
          cases found : find cursor.before cursor.rest with
          | none =>
              rw [finds.none found]
              exact congrArg (c :: ·) (ih 0 false rfl)
          | some result =>
              obtain ⟨result, behind⟩ := result
              obtain ⟨taken, captures, nonempty, whole, first, rfl⟩ := finds.some found
              obtain ⟨d, more, rfl⟩ := List.exists_cons_of_ne_nil nonempty
              obtain ⟨rfl, rest_eq⟩ := List.cons.inj (here.symm.trans whole)
              have length : rest.length - behind.length = more.length := by simp [rest_eq]
              have later := @ih more.length true (cursor.step c rest) rfl
              simp only [first, Cursor.Reaches.textTo_eq cursor whole, List.length_cons,
                List.flatMap_cons, Piece.replaced, later, length]
              rfl

/-- **Replacing the matches of a pattern is an edit**, if a finder tells the first match at each
place. -/
theorem replaceAll_eq_edit (steady : regex.isSteady = true) (finds : Finds regex value find)
    (text : Text) : regex.replaceAll value text = Text.edit find none text := by
  rw [Regex.replaceAll_eq, pieces_eq steady]
  exact finds.flatMap_firstPieces text 0 false rfl

end Finds

end CrossShade.Pattern
