import Mathlib.Data.List.Chain
import CrossShade.Layout
import CrossShade.Proofs.Blanks

/-!
Folding in one pass. The three passes of `fold` come to the same as going through the text once
and writing one space for each run of spacing (`fold_eq_squeeze`). From this it follows that
folding acts on both sides of any other character by itself (`fold_append_cons`), that it keeps
all other characters in their order (`filter_fold`), and that it leaves a text alone that is
folded already (`Folded.fold_eq`).
-/

namespace CrossShade.Layout

/-- The characters that folding turns into spaces. -/
def isSpacing (c : Char) : Bool :=
  c == ' ' || c == '\t' || c == '\r' || c == '\n'

/-- Nothing but spacing. -/
def AllSpacing (text : Text) : Prop :=
  ∀ c ∈ text, isSpacing c = true

instance (text : Text) : Decidable (AllSpacing text) :=
  inferInstanceAs (Decidable (∀ c ∈ text, isSpacing c = true))

theorem AllSpacing.notMem {gap : Text} (spacing : AllSpacing gap) {c : Char}
    (solid : isSpacing c = false) : c ∉ gap := by
  intro mem
  rw [spacing c mem] at solid
  cases solid

/-- Each run of spacing becomes one space. `spaced` tells that the run has begun before the
text. -/
def squeeze : Bool → Text → Text
  | _, [] => []
  | spaced, c :: rest =>
      if isSpacing c then (if spaced then squeeze true rest else ' ' :: squeeze true rest)
      else c :: squeeze false rest

/-! ### Three passes in one -/

theorem collapseSpaces_cons {c : Char} (solid : c ≠ ' ') (rest : Text) :
    collapseSpaces (c :: rest) = c :: collapseSpaces rest := by
  cases rest with
  | nil => rfl
  | cons d rest => simp [collapseSpaces, solid]

theorem collapseSpaces_space_cons {c : Char} (solid : c ≠ ' ') (rest : Text) :
    collapseSpaces (' ' :: c :: rest) = ' ' :: c :: collapseSpaces rest := by
  rw [← collapseSpaces_cons solid]
  simp [collapseSpaces, solid]

theorem collapseSpaces_space_space (rest : Text) :
    collapseSpaces (' ' :: ' ' :: rest) = collapseSpaces (' ' :: rest) := by
  simp [collapseSpaces]

theorem expandTabs_cons (c : Char) (rest : Text) :
    expandTabs (c :: rest) = (if c = '\t' then [' ', ' '] else [c]) ++ expandTabs rest := rfl

/-- What a character is before runs of spaces shrink. -/
def spread (c : Char) : Text :=
  if c = '\t' then [' ', ' '] else if c = '\r' ∨ c = '\n' then [' '] else [c]

theorem spread_of_spacing {c : Char} (spacing : isSpacing c = true) :
    spread c = [' ', ' '] ∨ spread c = [' '] := by
  simp only [isSpacing, Bool.or_eq_true, beq_iff_eq] at spacing
  rcases spacing with ((rfl | rfl) | rfl) | rfl <;> decide

theorem not_spacing_iff {c : Char} :
    isSpacing c = false ↔ c ≠ ' ' ∧ c ≠ '\t' ∧ c ≠ '\r' ∧ c ≠ '\n' := by
  simp [isSpacing, and_assoc]

theorem spread_of_not_spacing {c : Char} (solid : isSpacing c = false) : spread c = [c] := by
  obtain ⟨-, noTab, noReturn, noFeed⟩ := not_spacing_iff.mp solid
  simp [spread, noTab, noReturn, noFeed]

theorem expandTabs_foldLineEnds_cons {c : Char} {rest : Text}
    (noPair : ∀ later, c = '\r' → rest = '\n' :: later → False) :
    expandTabs (foldLineEnds (c :: rest)) = spread c ++ expandTabs (foldLineEnds rest) := by
  rw [foldLineEnds, expandTabs_cons, spread]
  · by_cases lineEnd : c = '\r' ∨ c = '\n'
    · rcases lineEnd with rfl | rfl <;> simp
    · simp [lineEnd]
  · exact noPair

/-- The passes at the start of a text and within a run of spacing. -/
theorem fold_eq_squeeze_both (text : Text) :
    fold text = squeeze false text ∧
      collapseSpaces (' ' :: expandTabs (foldLineEnds text)) = ' ' :: squeeze true text := by
  induction text using foldLineEnds.induct with
  | case1 => exact ⟨rfl, rfl⟩
  | case2 rest ih =>
      have shape : expandTabs (foldLineEnds ('\r' :: '\n' :: rest)) =
          ' ' :: expandTabs (foldLineEnds rest) := rfl
      rw [fold, shape, collapseSpaces_space_space]
      exact ⟨ih.2, ih.2⟩
  | case3 c rest noPair ih =>
      rw [fold, expandTabs_foldLineEnds_cons noPair]
      cases spacing : isSpacing c with
      | true =>
          simp only [squeeze, spacing, if_true]
          rcases spread_of_spacing spacing with run | run <;> rw [run] <;>
            simp [collapseSpaces_space_space, ih.2]
      | false =>
          obtain ⟨noSpace, -⟩ := not_spacing_iff.mp spacing
          rw [spread_of_not_spacing spacing]
          simp only [List.singleton_append, collapseSpaces_cons noSpace,
            collapseSpaces_space_cons noSpace, squeeze, spacing]
          exact ⟨congrArg (c :: ·) ih.1, congrArg (fun later => ' ' :: c :: later) ih.1⟩

/-- **One pass does it**: each run of spacing becomes one space, and all other characters are
kept. -/
theorem fold_eq_squeeze (text : Text) : fold text = squeeze false text :=
  (fold_eq_squeeze_both text).1

/-! ### Parts of a text -/

section Parts

variable {spaced : Bool} {c : Char} {gap word text front back : Text}

/-- Whether a text ends within a run of spacing. `spaced` tells that one has begun before it. -/
def endsSpaced (spaced : Bool) : Text → Bool
  | [] => spaced
  | c :: rest => endsSpaced (isSpacing c) rest

/-- What stands behind a text is squeezed by itself, but for a run of spacing across the two. -/
theorem squeeze_append (spaced : Bool) (front back : Text) :
    squeeze spaced (front ++ back) =
      squeeze spaced front ++ squeeze (endsSpaced spaced front) back := by
  induction front generalizing spaced with
  | nil => rfl
  | cons c front ih =>
      cases spacing : isSpacing c with
      | true => cases spaced <;> simp [squeeze, endsSpaced, spacing, ih]
      | false => simp [squeeze, endsSpaced, spacing, ih]

theorem exists_squeeze_append (spaced : Bool) (front back : Text) :
    ∃ later, squeeze spaced (front ++ back) = squeeze spaced front ++ squeeze later back :=
  ⟨_, squeeze_append spaced front back⟩

theorem squeeze_append_cons (solid : isSpacing c = false) (spaced : Bool) (front back : Text) :
    squeeze spaced (front ++ c :: back) = squeeze spaced front ++ c :: squeeze false back := by
  obtain ⟨later, eq⟩ := exists_squeeze_append spaced front (c :: back)
  rw [eq, squeeze]
  simp [solid]

/-- **Folding is local**: any character but spacing keeps what stands at its sides apart. -/
theorem fold_append_cons (solid : isSpacing c = false) (front back : Text) :
    fold (front ++ c :: back) = fold front ++ c :: fold back := by
  simp only [fold_eq_squeeze]
  exact squeeze_append_cons solid false front back

/-- A word and what follows it. -/
theorem squeeze_append_of_solid (nonempty : word ≠ []) (solid : ∀ c ∈ word, isSpacing c = false)
    (spaced : Bool) (back : Text) :
    squeeze spaced (word ++ back) = word ++ squeeze false back := by
  induction word generalizing spaced with
  | nil => exact absurd rfl nonempty
  | cons c word ih =>
      have first := solid c List.mem_cons_self
      simp only [List.cons_append, squeeze, first, Bool.false_eq_true, if_false]
      by_cases last : word = []
      · simp [last]
      · rw [ih last fun d mem => solid d (List.mem_cons_of_mem _ mem)]

/-- A run of spacing and what follows it. -/
theorem squeeze_append_of_spacing (nonempty : gap ≠ []) (spacing : AllSpacing gap) (back : Text) :
    squeeze spaced (gap ++ back) = (if spaced then [] else [' ']) ++ squeeze true back := by
  induction gap generalizing spaced with
  | nil => exact absurd rfl nonempty
  | cons c gap ih =>
      have first := spacing c List.mem_cons_self
      have later : squeeze true (gap ++ back) = squeeze true back := by
        by_cases last : gap = []
        · simp [last]
        · have run : squeeze true (gap ++ back) = [] ++ squeeze true back :=
            ih last fun d mem => spacing d (List.mem_cons_of_mem _ mem)
          exact run
      simp only [List.cons_append, squeeze, first, if_true, later]
      cases spaced <;> rfl

theorem mem_squeeze (mem : c ∈ squeeze spaced text) :
    c = ' ' ∨ c ∈ text ∧ isSpacing c = false := by
  induction text generalizing spaced with
  | nil => cases mem
  | cons d text ih =>
      have later : ∀ {spaced}, c ∈ squeeze spaced text →
          c = ' ' ∨ c ∈ d :: text ∧ isSpacing c = false := fun mem =>
        (ih mem).imp_right fun found => ⟨List.mem_cons_of_mem _ found.1, found.2⟩
      cases spacing : isSpacing d with
      | true =>
          cases spaced with
          | true =>
              simp only [squeeze, spacing, if_true] at mem
              exact later mem
          | false =>
              simp only [squeeze, spacing, if_true, Bool.false_eq_true, if_false,
                List.mem_cons] at mem
              exact mem.elim Or.inl later
      | false =>
          simp only [squeeze, spacing, Bool.false_eq_true, if_false, List.mem_cons] at mem
          rcases mem with rfl | mem
          · exact Or.inr ⟨List.mem_cons_self, spacing⟩
          · exact later mem

/-- Folding keeps all characters but spacing, in their order. -/
theorem filter_fold {p : Char → Bool} (solid : ∀ c, p c = true → isSpacing c = false)
    (text : Text) : (fold text).filter p = text.filter p := by
  have run : ∀ spaced, (squeeze spaced text).filter p = text.filter p := by
    induction text with
    | nil => exact fun _ => rfl
    | cons c text ih =>
        intro spaced
        have dropped : ∀ d, isSpacing d = true → p d = false := by
          intro d spacing
          rw [← Bool.not_eq_true]
          intro kept
          rw [solid d kept] at spacing
          cases spacing
        cases spacing : isSpacing c with
        | true =>
            cases spaced <;>
              simp [squeeze, spacing, dropped c spacing, dropped ' ' rfl, ih]
        | false => simp [squeeze, spacing, List.filter_cons, ih]
  rw [fold_eq_squeeze]
  exact run false

end Parts

/-! ### Spacing at the ends -/

section Ends

variable {gap text before behind : Text}

theorem isBlank_of_isSpacing {c : Char} (spacing : isSpacing c = true) : Text.isBlank c = true := by
  simp only [isSpacing, Bool.or_eq_true, beq_iff_eq] at spacing
  rcases spacing with ((rfl | rfl) | rfl) | rfl <;> decide

theorem allBlank_squeeze (spaced : Bool) (spacing : AllSpacing gap) :
    Text.AllBlank (squeeze spaced gap) := by
  intro c mem
  rcases mem_squeeze mem with rfl | ⟨mem, solid⟩
  · decide
  · exact absurd mem (spacing.notMem solid)

theorem trim_squeeze (spaced : Bool) (text : Text) :
    Text.trim (squeeze spaced text) = Text.trim (squeeze false text) := by
  cases spaced with
  | false => rfl
  | true =>
      cases text with
      | nil => rfl
      | cons c text =>
          cases spacing : isSpacing c with
          | false => simp [squeeze, spacing]
          | true =>
              have blank : Text.AllBlank [' '] := by decide
              have ends : Text.trim ([' '] ++ squeeze true text ++ []) =
                  Text.trim (squeeze true text) := Text.trim_append_append blank Text.allBlank_nil
              simpa [squeeze, spacing] using ends.symm

/-- Spacing around a text makes no difference to what is left of it. -/
theorem trim_fold_append_append (spacingBefore : AllSpacing before)
    (spacingBehind : AllSpacing behind) :
    Text.trim (fold (before ++ text ++ behind)) = Text.trim (fold text) := by
  simp only [fold_eq_squeeze]
  obtain ⟨last, eqBehind⟩ := exists_squeeze_append false (before ++ text) behind
  obtain ⟨inner, eqBefore⟩ := exists_squeeze_append false before text
  rw [eqBehind, eqBefore, Text.trim_append_append (allBlank_squeeze false spacingBefore)
    (allBlank_squeeze last spacingBehind), trim_squeeze]

end Ends

/-! ### Texts that are folded already -/

/-- The only spacing is single spaces. -/
structure Folded (text : Text) : Prop where
  spaces : ∀ c ∈ text, isSpacing c = true → c = ' '
  single : List.IsChain (fun c d => ¬(c = ' ' ∧ d = ' ')) text

theorem Folded.of_infix {part text : Text} (folded : Folded text) (isPart : part <:+: text) :
    Folded part :=
  ⟨fun c mem => folded.spaces c (isPart.subset mem), folded.single.infix isPart⟩

theorem squeeze_of_head {text : Text} (solid : ∀ c ∈ text.head?, isSpacing c = false) :
    squeeze true text = squeeze false text := by
  cases text with
  | nil => rfl
  | cons c text =>
      have first := solid c rfl
      simp [squeeze, first]

/-- Folding leaves a folded text as it is. -/
theorem Folded.fold_eq {text : Text} (folded : Folded text) : fold text = text := by
  rw [fold_eq_squeeze]
  induction text with
  | nil => rfl
  | cons c text ih =>
      have later := ih (folded.of_infix (List.suffix_cons c text).isInfix)
      cases spacing : isSpacing c with
      | false => simp [squeeze, spacing, later]
      | true =>
          obtain rfl := folded.spaces c List.mem_cons_self spacing
          have alone : ∀ d ∈ text.head?, isSpacing d = false := by
            intro d first
            rw [← Bool.not_eq_true]
            intro again
            obtain rfl := folded.spaces d
              (List.mem_cons_of_mem _ (List.mem_of_mem_head? first)) again
            exact folded.single.rel_head? first ⟨rfl, rfl⟩
          simp only [squeeze, spacing, if_true, Bool.false_eq_true, if_false, squeeze_of_head alone,
            later]

theorem folded_fold (text : Text) : Folded (fold text) := by
  rw [fold_eq_squeeze]
  refine ⟨fun c mem spacing => ?_, ?_⟩
  · rcases mem_squeeze mem with rfl | ⟨-, solid⟩
    · rfl
    · rw [spacing] at solid
      cases solid
  · have run : ∀ spaced, List.IsChain (fun c d => ¬(c = ' ' ∧ d = ' ')) (squeeze spaced text) ∧
        (spaced = true → ∀ c ∈ (squeeze spaced text).head?, c ≠ ' ') := by
      induction text with
      | nil => exact fun _ => ⟨.nil, by simp [squeeze]⟩
      | cons c text ih =>
          intro spaced
          cases spacing : isSpacing c with
          | true =>
              cases spaced with
              | true => simpa [squeeze, spacing] using ih true
              | false =>
                  simp only [squeeze, spacing, if_true, Bool.false_eq_true, if_false]
                  refine ⟨(ih true).1.cons fun d first pair => ?_, by simp⟩
                  exact (ih true).2 rfl d first pair.2
          | false =>
              obtain ⟨noSpace, -⟩ := not_spacing_iff.mp spacing
              simp only [squeeze, spacing, Bool.false_eq_true, if_false]
              refine ⟨(ih false).1.cons fun d _ pair => noSpace pair.1, ?_⟩
              rintro - d ⟨⟩
              exact noSpace
    exact (run false).1

end CrossShade.Layout
