import Mathlib.Data.List.SplitBy
import CrossShade.Proofs.Folding
import CrossShade.Source

/-!
Runs of spacing. A text is taken apart into its maximal runs of spacing and the maximal runs of
other characters between them. Folding writes a single space for each of the first and keeps each
of the others (`fold_eq_flatMap_runs`), so a folded text has no line end, no tab and no two spaces
side by side, and folding it again changes nothing (`fold_run_by_run`).
-/

namespace CrossShade.Layout

/-- Whether two neighbours belong to one run. -/
def alike (c d : Char) : Bool :=
  isSpacing c == isSpacing d

/-- A text taken apart: its maximal runs of spacing, and the maximal runs of other characters. -/
def runs (text : Text) : List Text :=
  text.splitBy alike

/-- What folding leaves of a run. -/
def foldRun (run : Text) : Text :=
  if run.all isSpacing then [' '] else run

section Runs

variable {run text : Text}

theorem foldRun_of_spacing (spacing : AllSpacing run) : foldRun run = [' '] :=
  if_pos (List.all_eq_true.mpr spacing)

theorem foldRun_of_solid (nonempty : run ≠ []) (solid : ∀ c ∈ run, isSpacing c = false) :
    foldRun run = run := by
  obtain ⟨c, rest, rfl⟩ := List.exists_cons_of_ne_nil nonempty
  simp [foldRun, solid c List.mem_cons_self]

/-- A run is spacing throughout or has none. -/
theorem uniform_of_mem_runs (mem : run ∈ runs text) :
    AllSpacing run ∨ ∀ c ∈ run, isSpacing c = false := by
  have chain : run.IsChain fun c d => isSpacing c = isSpacing d :=
    (List.isChain_of_mem_splitBy mem).imp fun c d same => beq_iff_eq.mp same
  cases run with
  | nil => exact Or.inl fun c mem => absurd mem List.not_mem_nil
  | cons c rest =>
      have same : ∀ d ∈ c :: rest, isSpacing d = isSpacing c :=
        List.forall_mem_cons.mpr ⟨rfl, fun d mem =>
          (List.rel_of_pairwise_cons (List.isChain_iff_pairwise.mp chain) mem).symm⟩
      cases first : isSpacing c with
      | true => exact Or.inl fun d mem => (same d mem).trans first
      | false => exact Or.inr fun d mem => (same d mem).trans first

/-- No two runs of spacing are neighbours. -/
theorem isChain_runs (text : Text) :
    (runs text).IsChain fun run next => ¬(AllSpacing run ∧ AllSpacing next) := by
  refine (List.isChain_getLast_head_splitBy alike text).imp ?_
  rintro run next ⟨nonempty, nonemptyNext, differ⟩ ⟨spacing, spacingNext⟩
  have last := spacing _ (List.getLast_mem nonempty)
  have first := spacingNext _ (List.head_mem nonemptyNext)
  simp [alike, last, first] at differ

/-- Runs one after another are folded each by itself, where no run of spacing follows another. -/
theorem squeeze_flatten {pieces : List Text} {spaced : Bool}
    (nonempty : ∀ run ∈ pieces, run ≠ [])
    (uniform : ∀ run ∈ pieces, AllSpacing run ∨ ∀ c ∈ run, isSpacing c = false)
    (apart : pieces.IsChain fun run next => ¬(AllSpacing run ∧ AllSpacing next))
    (start : spaced = true → ∀ run ∈ pieces.head?, ¬AllSpacing run) :
    squeeze spaced pieces.flatten = pieces.flatMap foldRun := by
  induction pieces generalizing spaced with
  | nil => rfl
  | cons run pieces ih =>
      obtain ⟨runNonempty, nonempty⟩ := List.forall_mem_cons.mp nonempty
      obtain ⟨runUniform, uniform⟩ := List.forall_mem_cons.mp uniform
      rw [List.flatten_cons, List.flatMap_cons]
      rcases runUniform with spacing | solid
      -- A run of spacing gives its own space only if none has begun before it.
      · have outside : spaced = false := by
          rw [← Bool.not_eq_true]
          exact fun inside => start inside run rfl spacing
        have behind : squeeze true pieces.flatten = pieces.flatMap foldRun :=
          ih nonempty uniform apart.tail fun _ next first both =>
            apart.rel_head? first ⟨spacing, both⟩
        rw [outside, squeeze_append_of_spacing runNonempty spacing, behind,
          foldRun_of_spacing spacing]
        rfl
      · have behind : squeeze false pieces.flatten = pieces.flatMap foldRun :=
          ih nonempty uniform apart.tail (by simp)
        rw [squeeze_append_of_solid runNonempty solid, behind,
          foldRun_of_solid runNonempty solid]

/-- **Each maximal run of spacing becomes one space**, and what stands between the runs is kept. -/
theorem fold_eq_flatMap_runs (text : Text) : fold text = (runs text).flatMap foldRun :=
  calc
    fold text = squeeze false (runs text).flatten := by
      rw [runs, List.flatten_splitBy, fold_eq_squeeze]
    _ = (runs text).flatMap foldRun :=
      squeeze_flatten (fun _ mem => List.ne_nil_of_mem_splitBy mem)
        (fun _ mem => uniform_of_mem_runs mem) (isChain_runs text) (by simp)

end Runs

/-! ### Folded texts -/

section Folded

variable {text : Text}

theorem Folded.notMem (folded : Folded text) {c : Char} (spacing : isSpacing c = true)
    (visible : c ≠ ' ') : c ∉ text :=
  fun mem => visible (folded.spaces c mem spacing)

theorem Folded.not_infix (folded : Folded text) : ¬[' ', ' '] <:+: text := by
  intro pair
  have single := folded.single.infix pair
  simp at single

end Folded

/-- **Folding in three passes is folding run by run.** Each maximal run of spacing becomes one
space and all else is kept; so a prepared text has no line end, no tab and no two spaces side by
side, and what is folded already is left alone. -/
theorem fold_run_by_run :
    (∀ text, fold text = (runs text).flatMap foldRun) ∧
    (∀ (table : Substitution.Table) (mode : Substitution.Mode) (source : Text),
      '\r' ∉ Source.prepare table mode source ∧ '\n' ∉ Source.prepare table mode source ∧
      '\t' ∉ Source.prepare table mode source ∧
      ¬[' ', ' '] <:+: Source.prepare table mode source) ∧
    ∀ text, fold (fold text) = fold text := by
  refine ⟨fold_eq_flatMap_runs, fun table mode source => ?_, fun text => ?_⟩
  · have folded : Folded (Source.prepare table mode source) := folded_fold _
    exact ⟨folded.notMem rfl (by decide), folded.notMem rfl (by decide),
      folded.notMem rfl (by decide), folded.not_infix⟩
  · exact (folded_fold text).fold_eq

end CrossShade.Layout
