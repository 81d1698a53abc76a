import CrossShade.Proofs.RemovedComments

/-!
Sources with other line ends. `withLineEnds ending` writes `ending` for every line feed of a text.

* `prepare_returnFeed`: with a carriage return in front of every line feed a source is prepared
  and converted as it was.
* `prepare_return`: with a lone carriage return for every line feed it is prepared as it was if the
  scan meets no line comment, directive or quote in front of one. Else it need not be, because the
  scan knows no other line end than the line feed: behind the first line comment or directive
  everything is lost.

Both come from one comparison of the two scans, place by place
(`lexemeAt_withLineEnds`, `sameLayout_strip`).
-/

namespace CrossShade

/-- The text with `ending` for every line feed. -/
def withLineEnds (ending text : Text) : Text :=
  text.flatMap fun c => if c = '\n' then ending else [c]

section Writing

variable {ending text : Text} {c : Char}

@[simp] theorem withLineEnds_nil : withLineEnds ending [] = [] := rfl

@[simp] theorem withLineEnds_append (front back : Text) :
    withLineEnds ending (front ++ back) = withLineEnds ending front ++ withLineEnds ending back :=
  List.flatMap_append

theorem withLineEnds_feed (text : Text) :
    withLineEnds ending ('\n' :: text) = ending ++ withLineEnds ending text := rfl

theorem withLineEnds_cons (other : c ≠ '\n') (text : Text) :
    withLineEnds ending (c :: text) = c :: withLineEnds ending text := by
  rw [withLineEnds, List.flatMap_cons, if_neg other]
  rfl

theorem withLineEnds_of_oneLine (oneLine : '\n' ∉ text) : withLineEnds ending text = text := by
  induction text with
  | nil => rfl
  | cons c text ih =>
      obtain ⟨first, later⟩ := List.ne_and_not_mem_of_not_mem_cons oneLine
      rw [withLineEnds_cons first.symm, ih later]

end Writing

/-! ### Layout -/

namespace Layout

/-- The texts are folded alike, wherever they stand. -/
def SameLayout (text other : Text) : Prop :=
  ∀ spaced, squeeze spaced text = squeeze spaced other ∧
    endsSpaced spaced text = endsSpaced spaced other

section Layouts

variable {gap text other front back more : Text}

theorem SameLayout.refl (text : Text) : SameLayout text text :=
  fun _ => ⟨rfl, rfl⟩

theorem endsSpaced_append (spaced : Bool) (front back : Text) :
    endsSpaced spaced (front ++ back) = endsSpaced (endsSpaced spaced front) back := by
  induction front generalizing spaced with
  | nil => rfl
  | cons c front ih => exact ih _

theorem SameLayout.append (same : SameLayout text other) (later : SameLayout back more) :
    SameLayout (text ++ back) (other ++ more) := by
  intro spaced
  simp only [squeeze_append, endsSpaced_append, (same spaced).1, (same spaced).2]
  exact ⟨congrArg _ (later _).1, (later _).2⟩

theorem SameLayout.fold_eq (same : SameLayout text other) : fold text = fold other := by
  rw [fold_eq_squeeze, fold_eq_squeeze, (same false).1]

theorem endsSpaced_of_spacing (nonempty : gap ≠ []) (spacing : AllSpacing gap) (spaced : Bool) :
    endsSpaced spaced gap = true := by
  induction gap generalizing spaced with
  | nil => exact absurd rfl nonempty
  | cons c gap ih =>
      rw [endsSpaced, spacing c List.mem_cons_self]
      by_cases last : gap = []
      · rw [last, endsSpaced]
      · exact ih last (fun d mem => spacing d (List.mem_cons_of_mem _ mem)) true

/-- One run of spacing is like another. -/
theorem sameLayout_of_spacing (nonempty : text ≠ []) (spacing : AllSpacing text)
    (someOther : other ≠ []) (otherSpacing : AllSpacing other) : SameLayout text other := by
  intro spaced
  have one := @squeeze_append_of_spacing spaced text nonempty spacing []
  have two := @squeeze_append_of_spacing spaced other someOther otherSpacing []
  rw [List.append_nil] at one two
  refine ⟨one.trans two.symm, ?_⟩
  rw [endsSpaced_of_spacing nonempty spacing, endsSpaced_of_spacing someOther otherSpacing]

end Layouts

end Layout

open CrossShade.Layout

/-- A line end: carriage returns and line feeds, at least one of them. -/
structure IsLineEnd (ending : Text) : Prop where
  nonempty : ending ≠ []
  made : ∀ c ∈ ending, c = '\r' ∨ c = '\n'

theorem IsLineEnd.spacing {ending : Text} (isLineEnd : IsLineEnd ending) : AllSpacing ending := by
  intro c mem
  rcases isLineEnd.made c mem with rfl | rfl <;> rfl

theorem isLineEnd_return : IsLineEnd ['\r'] := by
  constructor <;> decide

theorem isLineEnd_returnFeed : IsLineEnd ['\r', '\n'] := by
  constructor <;> decide

section LineEnds

variable {ending text : Text} (isLineEnd : IsLineEnd ending)

include isLineEnd

theorem IsLineEnd.sameLayout : SameLayout ending ['\n'] :=
  sameLayout_of_spacing isLineEnd.nonempty isLineEnd.spacing (List.cons_ne_nil _ _) (by decide)

theorem sameLayout_withLineEnds (text : Text) : SameLayout (withLineEnds ending text) text := by
  induction text with
  | nil => exact .refl []
  | cons c text ih =>
      by_cases feed : c = '\n'
      · subst feed
        exact isLineEnd.sameLayout.append ih
      · rw [withLineEnds_cons feed]
        exact (SameLayout.refl [c]).append ih

/-- A character that is no spacing stands at the start only if it stood there before. -/
theorem exists_of_withLineEnds_eq_cons {c : Char} {rest : Text} (solid : isSpacing c = false)
    (begins : withLineEnds ending text = c :: rest) :
    ∃ behind, text = c :: behind ∧ rest = withLineEnds ending behind := by
  cases text with
  | nil => cases begins
  | cons d text =>
      by_cases feed : d = '\n'
      · subst feed
        obtain ⟨e, more, rfl⟩ := List.exists_cons_of_ne_nil isLineEnd.nonempty
        obtain ⟨rfl, -⟩ := List.cons.inj begins
        exact absurd List.mem_cons_self (isLineEnd.spacing.notMem solid)
      · rw [withLineEnds_cons feed] at begins
        obtain ⟨rfl, rfl⟩ := List.cons.inj begins
        exact ⟨text, rfl, rfl⟩

theorem head?_withLineEnds {c : Char} (solid : isSpacing c = false) :
    (withLineEnds ending text).head? = some c ↔ text.head? = some c := by
  constructor
  · intro first
    obtain ⟨rest, begins⟩ := List.head?_eq_some_iff.mp first
    obtain ⟨behind, rfl, -⟩ := exists_of_withLineEnds_eq_cons isLineEnd solid begins
    rfl
  · intro first
    obtain ⟨rest, rfl⟩ := List.head?_eq_some_iff.mp first
    rw [withLineEnds_cons (not_spacing_iff.mp solid).2.2.2]
    rfl

theorem prefix_withLineEnds_iff {mark : Text} (solid : ∀ c ∈ mark, isSpacing c = false) :
    mark <+: withLineEnds ending text ↔ mark <+: text := by
  induction mark generalizing text with
  | nil => simp
  | cons c mark ih =>
      have first := solid c List.mem_cons_self
      have later := fun d mem => solid d (List.mem_cons_of_mem _ mem)
      constructor
      · rintro ⟨rest, eq⟩
        obtain ⟨behind, rfl, inner⟩ := exists_of_withLineEnds_eq_cons isLineEnd first eq.symm
        exact List.cons_prefix_cons.mpr ⟨rfl, (ih later).mp ⟨rest, inner⟩⟩
      · rintro ⟨rest, rfl⟩
        rw [List.cons_append, withLineEnds_cons (not_spacing_iff.mp first).2.2.2]
        exact List.cons_prefix_cons.mpr ⟨rfl, (ih later).mpr ⟨rest, rfl⟩⟩

end LineEnds

/-! ### Lexemes -/

namespace Comment

/-- A cut with other line ends in both parts. -/
def cutWith (ending : Text) (cut : Text × Text) : Text × Text :=
  (withLineEnds ending cut.1, withLineEnds ending cut.2)

/-- The line end has its only line feed at its end. -/
def EndsLine (ending : Text) : Prop :=
  ∃ mark, ending = mark ++ ['\n'] ∧ '\n' ∉ mark

/-- The text begins with a mark whose reach ends with the line. -/
def LineBound (text : Text) : Prop :=
  "//".toList <+: text ∨ "#".toList <+: text ∨ "\"".toList <+: text

instance (text : Text) : Decidable (LineBound text) :=
  inferInstanceAs (Decidable ("//".toList <+: text ∨ "#".toList <+: text ∨ "\"".toList <+: text))

section Ends

variable {ending text : Text}

theorem push_cutWith {c : Char} (other : c ≠ '\n') (cut : Text × Text) :
    push c (cutWith ending cut) = cutWith ending (push c cut) := by
  simp only [push, cutWith, withLineEnds_cons other]

theorem map_push_cutWith {c : Char} (other : c ≠ '\n') (cut : Option (Text × Text)) :
    (cut.map (cutWith ending)).map (push c) = (cut.map (push c)).map (cutWith ending) := by
  cases cut with
  | none => rfl
  | some cut => exact congrArg some (push_cutWith other cut)

/-- Spacing neither closes a block comment nor begins the mark that does. -/
theorem blockEnd_gap_append {gap : Text} (spacing : AllSpacing gap) (back : Text) :
    blockEnd (gap ++ back) = (blockEnd back).map fun cut => (gap ++ cut.1, cut.2) := by
  induction gap with
  | nil => simp
  | cons c gap ih =>
      have later := ih fun d mem => spacing d (List.mem_cons_of_mem _ mem)
      have goesOn : ¬(c = '*' ∧ (gap ++ back).head? = some '/') := by
        rintro ⟨rfl, -⟩
        exact spacing.notMem rfl List.mem_cons_self
      rw [List.cons_append, blockEnd, if_neg goesOn, later, Option.map_map]
      rfl

theorem blockEnd_withLineEnds (isLineEnd : IsLineEnd ending) (text : Text) :
    blockEnd (withLineEnds ending text) = (blockEnd text).map (cutWith ending) := by
  induction text with
  | nil => rfl
  | cons c rest ih =>
      by_cases feed : c = '\n'
      · subst feed
        rw [withLineEnds_feed, blockEnd_gap_append isLineEnd.spacing, ih, blockEnd,
          if_neg fun closes => absurd closes.1 (by decide), Option.map_map, Option.map_map]
        rfl
      · have next := @head?_withLineEnds ending rest isLineEnd '/' rfl
        rw [withLineEnds_cons feed, blockEnd, blockEnd]
        by_cases closes : c = '*' ∧ rest.head? = some '/'
        · rw [if_pos closes, if_pos (closes.imp_right next.mpr)]
          obtain ⟨behind, rfl⟩ := List.head?_eq_some_iff.mp closes.2
          rfl
        · rw [if_neg closes, if_neg (mt (And.imp_right next.mp) closes), ih, map_push_cutWith feed]

/-- Spacing stands between two quoted runs or within one. -/
theorem runsEnd_gap_append {gap : Text} (nonempty : gap ≠ []) (spacing : AllSpacing gap)
    (back : Text) :
    runsEnd true (gap ++ back) = some ([], gap ++ back) ∧
      runsEnd false (gap ++ back) = (runsEnd false back).map fun cut => (gap ++ cut.1, cut.2) := by
  have noQuote : ∀ c ∈ gap, c ≠ '"' := by
    rintro c mem rfl
    exact spacing.notMem rfl mem
  refine ⟨?_, ?_⟩
  · obtain ⟨c, gap, rfl⟩ := List.exists_cons_of_ne_nil nonempty
    rw [List.cons_append, runsEnd, if_neg (noQuote c List.mem_cons_self)]
  · clear nonempty spacing
    induction gap with
    | nil => simp
    | cons c gap ih =>
        have other : (c == '"') = false := by simpa using noQuote c List.mem_cons_self
        have later := ih fun d mem => noQuote d (List.mem_cons_of_mem _ mem)
        rw [List.cons_append, runsEnd, other, later, Option.map_map]
        rfl

theorem runsEnd_withLineEnds (isLineEnd : IsLineEnd ending) (closed : Bool) (text : Text) :
    runsEnd closed (withLineEnds ending text) = (runsEnd closed text).map (cutWith ending) := by
  induction text generalizing closed with
  | nil => cases closed <;> rfl
  | cons c rest ih =>
      by_cases feed : c = '\n'
      · subst feed
        obtain ⟨between, within⟩ := runsEnd_gap_append isLineEnd.nonempty isLineEnd.spacing
          (withLineEnds ending rest)
        cases closed with
        | true =>
            rw [withLineEnds_feed, between]
            rfl
        | false =>
            rw [withLineEnds_feed, within, ih, runsEnd, Option.map_map, Option.map_map]
            rfl
      · rw [withLineEnds_cons feed]
        cases closed with
        | false => rw [runsEnd, runsEnd, ih, map_push_cutWith feed]
        | true =>
            by_cases quote : c = '"'
            · subst quote
              rw [runsEnd, runsEnd, if_pos rfl, if_pos rfl, ih]
              cases runsEnd false rest <;> rfl
            · rw [runsEnd, runsEnd, if_neg quote, if_neg quote, ← withLineEnds_cons feed]
              rfl

theorem lineEnd_withLineEnds (endsLine : EndsLine ending) (text : Text) :
    lineEnd (withLineEnds ending text) = cutWith ending (lineEnd text) := by
  induction text with
  | nil => rfl
  | cons c rest ih =>
      by_cases feed : c = '\n'
      · subst feed
        obtain ⟨mark, rfl, oneLine⟩ := endsLine
        rw [withLineEnds_feed, List.append_assoc, List.singleton_append,
          lineEnd_append_cons oneLine, lineEnd, if_pos rfl, cutWith, withLineEnds_feed]
        simp
      · rw [withLineEnds_cons feed, lineEnd, lineEnd, if_neg feed, if_neg feed, ih,
          push_cutWith feed]

/-- No literal goes on across a line feed. -/
theorem literalEnd_gap_feed {gap : Text} (spacing : AllSpacing gap) (escaped : Bool) (back : Text) :
    literalEnd escaped (gap ++ '\n' :: back) = none := by
  induction gap generalizing escaped with
  | nil => rfl
  | cons c gap ih =>
      have later := ih fun d mem => spacing d (List.mem_cons_of_mem _ mem)
      by_cases feed : c = '\n'
      · rw [feed]
        rfl
      · have noQuote : c ≠ '"' := by
          rintro rfl
          exact spacing.notMem rfl List.mem_cons_self
        rw [List.cons_append, literalEnd_cons_other feed noQuote, later]
        rfl

theorem literalEnd_withLineEnds (isLineEnd : IsLineEnd ending) (endsLine : EndsLine ending)
    (escaped : Bool) (text : Text) :
    literalEnd escaped (withLineEnds ending text) =
      (literalEnd escaped text).map (cutWith ending) := by
  induction text generalizing escaped with
  | nil => rfl
  | cons c rest ih =>
      by_cases feed : c = '\n'
      · subst feed
        obtain ⟨mark, rfl, -⟩ := endsLine
        have spacing : AllSpacing mark := fun d mem =>
          isLineEnd.spacing d (List.mem_append_left _ mem)
        rw [withLineEnds_feed, List.append_assoc, List.singleton_append,
          literalEnd_gap_feed spacing, literalEnd_cons_lineEnd]
        rfl
      · rw [withLineEnds_cons feed]
        by_cases quote : c = '"'
        · subst quote
          cases escaped with
          | false => rfl
          | true =>
              rw [literalEnd_cons_escaped feed, literalEnd_cons_escaped feed, ih,
                map_push_cutWith feed]
              cases literalEnd false rest <;> rfl
        · rw [literalEnd_cons_other feed quote, literalEnd_cons_other feed quote, ih,
            map_push_cutWith feed]

/-- **The lexeme at the start of a text is the same with other line ends**, if those end a line
wherever the lexeme asks for it. -/
theorem lexemeAt_withLineEnds (isLineEnd : IsLineEnd ending)
    (bound : LineBound text → EndsLine ending) :
    lexemeAt (withLineEnds ending text) = (lexemeAt text).map (cutWith ending) := by
  have slash : '/' ≠ '\n' := by decide
  have star : '*' ≠ '\n' := by decide
  have hash : '#' ≠ '\n' := by decide
  have quote : '"' ≠ '\n' := by decide
  have sign : '@' ≠ '\n' := by decide
  rw [lexemeAt.eq_def text]
  split
  · next rest =>
      have shape : withLineEnds ending ('/' :: '*' :: rest) =
          '/' :: '*' :: withLineEnds ending rest := by
        rw [withLineEnds_cons slash, withLineEnds_cons star]
      rw [shape, lexemeAt, blockEnd_withLineEnds isLineEnd]
      cases blockEnd rest with
      | none => rfl
      | some cut => simp only [Option.map_some, push_cutWith slash, push_cutWith star]
  · next rest =>
      have endsLine := bound (Or.inl ⟨rest, rfl⟩)
      rw [withLineEnds_cons slash, withLineEnds_cons slash, lexemeAt,
        lineEnd_withLineEnds endsLine, push_cutWith slash, push_cutWith slash]
      rfl
  · next rest =>
      have endsLine := bound (Or.inr (Or.inl ⟨rest, rfl⟩))
      rw [withLineEnds_cons hash, lexemeAt, lineEnd_withLineEnds endsLine, push_cutWith hash]
      rfl
  · next rest =>
      have endsLine := bound (Or.inr (Or.inr ⟨rest, rfl⟩))
      rw [withLineEnds_cons quote, lexemeAt, literalEnd_withLineEnds isLineEnd endsLine,
        map_push_cutWith quote]
  · next rest =>
      rw [withLineEnds_cons sign, withLineEnds_cons quote, lexemeAt,
        runsEnd_withLineEnds isLineEnd]
      cases runsEnd false rest with
      | none => rfl
      | some cut => simp only [Option.map_some, push_cutWith sign, push_cutWith quote]
  · next noBlock noLine noDirective noLiteral noVerbatim =>
      have solid : ∀ mark ∈ marks, ∀ c ∈ mark, isSpacing c = false := by decide
      refine lexemeAt_of_no_mark fun mark listed found => ?_
      obtain ⟨rest, rfl⟩ := (prefix_withLineEnds_iff isLineEnd (solid mark listed)).mp found
      simp only [marks, List.mem_cons, List.not_mem_nil, or_false] at listed
      rcases listed with rfl | rfl | rfl | rfl | rfl
      · exact noBlock rest rfl
      · exact noLine rest rfl
      · exact noDirective rest rfl
      · exact noLiteral rest rfl
      · exact noVerbatim rest rfl

/-! ### What remains -/

theorem getLast?_withLineEnds (endsLine : EndsLine ending) (text : Text) :
    (withLineEnds ending text).getLast? = some '\n' ↔ text.getLast? = some '\n' := by
  induction text using List.reverseRecOn with
  | nil => rfl
  | append_singleton front c =>
      rw [withLineEnds_append]
      by_cases feed : c = '\n'
      · obtain ⟨mark, rfl, -⟩ := endsLine
        rw [feed, withLineEnds_feed]
        simp
      · rw [withLineEnds_cons feed]
        simp

/-- What remains of a lexeme is folded as before. -/
theorem sameLayout_remains (isLineEnd : IsLineEnd ending)
    (bound : LineBound text → EndsLine ending) :
    SameLayout (remains (withLineEnds ending text)) (remains text) := by
  have slash : '/' ≠ '\n' := by decide
  have star : '*' ≠ '\n' := by decide
  have hash : '#' ≠ '\n' := by decide
  rw [remains.eq_def text]
  split
  · rw [withLineEnds_cons slash, withLineEnds_cons star]
    exact .refl []
  · rw [withLineEnds_cons hash]
    exact .refl []
  · next rest =>
      have last := getLast?_withLineEnds (bound (Or.inl ⟨rest, rfl⟩)) rest
      rw [withLineEnds_cons slash, withLineEnds_cons slash, remains]
      simp only [last]
      exact .refl _
  · next noBlock noDirective noLine =>
      have kept : remains (withLineEnds ending text) = withLineEnds ending text := by
        unfold remains
        split
        · next eq =>
            obtain ⟨rest, rfl⟩ := (prefix_withLineEnds_iff isLineEnd (by decide)).mp
              (show "/*".toList <+: withLineEnds ending text from ⟨_, eq.symm⟩)
            exact absurd rfl (noBlock rest)
        · next eq =>
            obtain ⟨rest, rfl⟩ := (prefix_withLineEnds_iff isLineEnd (by decide)).mp
              (show "#".toList <+: withLineEnds ending text from ⟨_, eq.symm⟩)
            exact absurd rfl (noDirective rest)
        · next eq =>
            obtain ⟨rest, rfl⟩ := (prefix_withLineEnds_iff isLineEnd (by decide)).mp
              (show "//".toList <+: withLineEnds ending text from ⟨_, eq.symm⟩)
            exact absurd rfl (noLine rest)
        · rfl
      rw [kept]
      exact sameLayout_withLineEnds isLineEnd text

end Ends

/-! ### The scan -/

/-- The line end does at a place of the scan what a line feed does there: the mark that begins
there, if its reach ends with the line, has no line end behind it or one with a line feed. -/
def Keeps (ending place : Text) : Prop :=
  LineBound place → EndsLine ending ∨ '\n' ∉ place

section Scan

variable {ending text : Text} {cut : Text × Text}

theorem lexemeAt_of_keeps (isLineEnd : IsLineEnd ending) (keeps : Keeps ending text) :
    lexemeAt (withLineEnds ending text) = (lexemeAt text).map (cutWith ending) := by
  by_cases several : '\n' ∈ text
  · exact lexemeAt_withLineEnds isLineEnd fun bound =>
      (keeps bound).resolve_right (not_not_intro several)
  · rw [withLineEnds_of_oneLine several]
    cases found : lexemeAt text with
    | none => rfl
    | some cut =>
        obtain ⟨rfl, -⟩ := lexemeAt_append found
        obtain ⟨front, back⟩ : '\n' ∉ cut.1 ∧ '\n' ∉ cut.2 := by simpa using several
        rw [Option.map_some, cutWith, withLineEnds_of_oneLine front, withLineEnds_of_oneLine back]

theorem sameLayout_remains_of_keeps (isLineEnd : IsLineEnd ending) (keeps : Keeps ending text)
    (found : lexemeAt text = some cut) :
    SameLayout (remains (withLineEnds ending cut.1)) (remains cut.1) := by
  obtain ⟨rfl, -⟩ := lexemeAt_append found
  by_cases several : '\n' ∈ cut.1
  · have longer : '\n' ∈ cut.1 ++ cut.2 := List.mem_append_left _ several
    refine sameLayout_remains isLineEnd fun bound => ?_
    have whole : LineBound (cut.1 ++ cut.2) :=
      bound.imp (·.trans (List.prefix_append _ _))
        (Or.imp (·.trans (List.prefix_append _ _)) (·.trans (List.prefix_append _ _)))
    exact (keeps whole).resolve_right (not_not_intro longer)
  · rw [withLineEnds_of_oneLine several]
    exact .refl _

theorem strip_lineEnd_append (isLineEnd : IsLineEnd ending) (back : Text) :
    strip (ending ++ back) = ending ++ strip back := by
  have other : ∀ {c}, isSpacing c = false → c ∉ ending := isLineEnd.spacing.notMem
  refine strip_append ⟨other rfl, other rfl, other rfl⟩ fun last => ?_
  exact absurd (List.mem_of_getLast? last) (other rfl)

/-- **The scan in step**: with other line ends it stops at the same places, and what it leaves is
folded as before. -/
theorem sameLayout_strip (isLineEnd : IsLineEnd ending) (text : Text)
    (keeps : ∀ place ∈ places text, Keeps ending place) :
    SameLayout (strip (withLineEnds ending text)) (strip text) := by
  induction text using (measure List.length).wf.induction with
  | h text ih =>
      cases found : lexemeAt text with
      | some cut =>
          obtain ⟨whole, nonempty⟩ := lexemeAt_append found
          have positive := List.length_pos_iff.mpr nonempty
          have shorter : cut.2.length < text.length := by
            rw [← whole, List.length_append]
            omega
          rw [places_of_some found] at keeps
          have here := keeps text List.mem_cons_self
          have same : lexemeAt (withLineEnds ending text) = some (cutWith ending cut) := by
            rw [lexemeAt_of_keeps isLineEnd here, found]
            rfl
          rw [strip_of_some same, strip_of_some found]
          exact (sameLayout_remains_of_keeps isLineEnd here found).append
            (ih cut.2 shorter fun place mem => keeps place (List.mem_cons_of_mem _ mem))
      | none =>
          cases text with
          | nil => exact .refl _
          | cons c rest =>
              rw [places_of_none found] at keeps
              have later := ih rest (Nat.lt_succ_self _) fun place mem =>
                keeps place (List.mem_cons_of_mem _ mem)
              rw [strip_of_none found]
              by_cases feed : c = '\n'
              · subst feed
                rw [withLineEnds_feed, strip_lineEnd_append isLineEnd]
                exact isLineEnd.sameLayout.append later
              · have same := lexemeAt_of_keeps isLineEnd (keeps _ List.mem_cons_self)
                rw [found, withLineEnds_cons feed] at same
                rw [withLineEnds_cons feed, strip_of_none same]
                exact (SameLayout.refl [c]).append later

end Scan

end Comment

/-! ### Preparation -/

open CrossShade.Substitution CrossShade.Comment

/-- No name of the table and no replacement has a carriage return or a line feed in it. -/
def Substitution.Table.IsOneLine (table : Table) : Prop :=
  ∀ entry ∈ table.entries, ∀ c ∈ ['\r', '\n'], c ∉ entry.source ∧ c ∉ entry.target

theorem glslToCg_isOneLine : Table.glslToCg.IsOneLine := by
  unfold Table.IsOneLine
  decide

section Preparation

variable {table : Table} {mode : Mode} {ending text source : Text}

theorem Substitution.Table.IsOneLine.apart (oneLine : table.IsOneLine) {c : Char}
    (lineEnd : c = '\r' ∨ c = '\n') : table.Apart c where
  separate := by rcases lineEnd with rfl | rfl <;> rfl
  absent entry listed := (oneLine entry listed c (List.mem_pair.mpr lineEnd)).1

theorem Substitution.Table.IsOneLine.notMem_apply (oneLine : table.IsOneLine)
    (absent : '\n' ∉ text) : '\n' ∉ table.apply mode text := by
  intro mem
  rcases Table.mem_apply mem with mem | ⟨entry, listed, mem⟩
  · exact absent mem
  · exact (oneLine entry listed '\n' (List.mem_pair.mpr (Or.inr rfl))).2 mem

/-- Names are replaced on each line by itself. -/
theorem apply_withLineEnds (oneLine : table.IsOneLine) (isLineEnd : IsLineEnd ending) (mode : Mode)
    (text : Text) :
    table.apply mode (withLineEnds ending text) = withLineEnds ending (table.apply mode text) := by
  have apart : ∀ c ∈ ending, table.Apart c := fun c mem => oneLine.apart (isLineEnd.made c mem)
  -- `front` is what has been passed of the current line.
  have run : ∀ front, '\n' ∉ front → table.apply mode (front ++ withLineEnds ending text) =
      withLineEnds ending (table.apply mode (front ++ text)) := by
    induction text with
    | nil =>
        intro front inLine
        have stays : '\n' ∉ table.apply mode (front ++ []) :=
          oneLine.notMem_apply (by simpa using inLine)
        rw [withLineEnds_of_oneLine stays, withLineEnds_nil]
    | cons c text ih =>
        intro front inLine
        by_cases feed : c = '\n'
        · subst feed
          have later : table.apply mode (withLineEnds ending text) =
              withLineEnds ending (table.apply mode text) := ih [] (by simp)
          rw [withLineEnds_feed, Table.apply_append_apart isLineEnd.nonempty apart, later,
            Table.apply_append_cons_of_apart (oneLine.apart (Or.inr rfl)), withLineEnds_append,
            withLineEnds_feed, withLineEnds_of_oneLine (oneLine.notMem_apply inLine)]
        · have longer : '\n' ∉ front ++ [c] := by
            simpa using ⟨inLine, Ne.symm feed⟩
          have later := ih (front ++ [c]) longer
          rw [withLineEnds_cons feed]
          simpa using later
  exact run [] (by simp)

theorem dropMark_withLineEnds (isLineEnd : IsLineEnd ending) (text : Text) :
    Source.dropMark (withLineEnds ending text) = withLineEnds ending (Source.dropMark text) := by
  cases text with
  | nil => rfl
  | cons c text =>
      by_cases feed : c = '\n'
      · obtain ⟨d, more, rfl⟩ := List.exists_cons_of_ne_nil isLineEnd.nonempty
        have noMark : d ≠ Char.ofNat 0xFEFF := by
          rcases isLineEnd.made d List.mem_cons_self with rfl | rfl <;> decide
        subst feed
        rw [withLineEnds_feed, List.cons_append, Source.dropMark, if_neg noMark]
        rfl
      · rw [withLineEnds_cons feed, Source.dropMark, Source.dropMark]
        split
        · rfl
        · rw [withLineEnds_cons feed]

/-- A source with other line ends is substituted as it was. -/
theorem prepare_withLineEnds (oneLine : table.IsOneLine) (isLineEnd : IsLineEnd ending)
    (mode : Mode) (source : Text) :
    Source.prepare table mode (withLineEnds ending source) =
      fold (strip (withLineEnds ending (table.apply mode (Source.dropMark source)))) := by
  rw [Source.prepare, dropMark_withLineEnds isLineEnd, apply_withLineEnds oneLine isLineEnd]

end Preparation

/-- **Line feeds with carriage returns in front of them.** A source with a carriage return in front
of every line feed is prepared and converted as it is without them, by any settings whose
substitutions keep to one line. -/
theorem prepare_returnFeed {settings : Settings} (oneLine : settings.substitutions.IsOneLine)
    (source : Text) :
    Source.prepare settings.substitutions settings.mode (withLineEnds ['\r', '\n'] source) =
        Source.prepare settings.substitutions settings.mode source ∧
      ∀ stage, Conversion.convert settings stage (withLineEnds ['\r', '\n'] source) =
        Conversion.convert settings stage source := by
  have endsLine : EndsLine ['\r', '\n'] := ⟨['\r'], rfl, by decide⟩
  have same : Source.prepare settings.substitutions settings.mode
      (withLineEnds ['\r', '\n'] source) =
        Source.prepare settings.substitutions settings.mode source := by
    rw [prepare_withLineEnds oneLine isLineEnd_returnFeed]
    exact (sameLayout_strip isLineEnd_returnFeed _ fun _ _ _ => Or.inl endsLine).fold_eq
  exact ⟨same, convert_congr same⟩

theorem prepare_returnFeed_sample :
    Conversion.convert .standard .vertex
        (withLineEnds ['\r', '\n'] "#version 100\n// a \"\nvoid main()\n{}\n".toList) =
      Conversion.convert .standard .vertex "#version 100\n// a \"\nvoid main()\n{}\n".toList :=
  (prepare_returnFeed glslToCg_isOneLine _).2 .vertex

/-! ### Lone carriage returns -/

section Return

variable {mode : Mode} {front rest text : Text} {c : Char}

theorem mem_withLineEnds {ending : Text} (mem : c ∈ withLineEnds ending text) :
    c ∈ text ∧ c ≠ '\n' ∨ c ∈ ending := by
  obtain ⟨d, listed, mem⟩ := List.mem_flatMap.mp mem
  split at mem
  · exact Or.inr mem
  · next other =>
      obtain rfl := List.mem_singleton.mp mem
      exact Or.inl ⟨listed, other⟩

theorem feed_notMem_withReturns (text : Text) : '\n' ∉ withLineEnds ['\r'] text := by
  intro mem
  rcases mem_withLineEnds mem with found | found
  · exact found.2 rfl
  · exact absurd found (by decide)

theorem Comment.Commentless.withReturns (plain : Commentless text) :
    Commentless (withLineEnds ['\r'] text) := by
  have inside : ∀ c ≠ '\r', c ∈ withLineEnds ['\r'] text → c ∈ text := by
    intro c other mem
    rcases mem_withLineEnds mem with found | found
    · exact found.1
    · exact absurd (List.mem_singleton.mp found) other
  exact ⟨fun mem => plain.noQuote (inside _ (by decide) mem),
    fun mem => plain.noHash (inside _ (by decide) mem),
    fun mem => plain.noSlash (inside _ (by decide) mem)⟩

theorem apply_dropMark_append_mark {mark : Text} (listed : mark ∈ ["//".toList, "#".toList])
    (mode : Mode) (front rest : Text) :
    Table.glslToCg.apply mode (Source.dropMark (front ++ (mark ++ rest))) =
      Table.glslToCg.apply mode (Source.dropMark front) ++
        (mark ++ Table.glslToCg.apply mode rest) := by
  have apart : ∀ c ∈ mark, Table.glslToCg.Apart c := by
    refine fun c mem => glslToCg_isLexical.apart ?_
    rcases List.mem_pair.mp listed with rfl | rfl <;> revert c <;> decide
  have nonempty : mark ≠ [] := by
    rcases List.mem_pair.mp listed with rfl | rfl <;> decide
  have same : Source.dropMark (front ++ (mark ++ rest)) =
      Source.dropMark front ++ (mark ++ rest) := by
    rcases List.mem_pair.mp listed with rfl | rfl <;>
      exact dropMark_append_cons (by decide) front _
  rw [same, Table.apply_append_apart nonempty apart]

/-- With carriage returns for line feeds nothing is left behind the first line comment or
directive. -/
theorem prepare_withReturns_of_mark (plain : Commentless front) {mark : Text}
    (listed : mark ∈ ["//".toList, "#".toList]) (mode : Mode) (rest : Text) :
    Source.prepare .glslToCg mode (withLineEnds ['\r'] (front ++ (mark ++ rest))) =
      Source.prepare .glslToCg mode front := by
  have plainFront : Commentless (Table.glslToCg.apply mode (Source.dropMark front)) :=
    (plain.of_subset fun _ => mem_of_mem_dropMark).apply mode
  have inLine : '\n' ∉ mark := by
    rcases List.mem_pair.mp listed with rfl | rfl <;> decide
  have noQuote : (mark ++ withLineEnds ['\r'] (Table.glslToCg.apply mode rest)).head? ≠
      some '"' := by
    rcases List.mem_pair.mp listed with rfl | rfl <;> simp
  rw [prepare_withLineEnds glslToCg_isOneLine isLineEnd_return,
    apply_dropMark_append_mark listed, withLineEnds_append, withLineEnds_append,
    withLineEnds_of_oneLine inLine,
    strip_append plainFront.withReturns fun _ => noQuote,
    strip_last_line listed (feed_notMem_withReturns _), List.append_nil,
    (sameLayout_withLineEnds isLineEnd_return _).fold_eq, Source.prepare,
    strip_of_commentless plainFront]

end Return

/-- **Carriage returns for line feeds.** A source with a lone carriage return for every line feed is
prepared as before if the scan meets no line comment, directive or quote in front of a line feed.
Behind the first line comment or directive everything is lost, because a carriage return ends
neither. -/
theorem prepare_return (mode : Mode) (source : Text) :
    ((∀ place ∈ places (Table.glslToCg.apply mode (Source.dropMark source)),
        LineBound place → '\n' ∉ place) →
      Source.prepare .glslToCg mode (withLineEnds ['\r'] source) =
        Source.prepare .glslToCg mode source) ∧
    ∀ front mark rest : Text, source = front ++ (mark ++ rest) → Commentless front →
      mark ∈ ["//".toList, "#".toList] →
        Source.prepare .glslToCg mode (withLineEnds ['\r'] source) =
          Source.prepare .glslToCg mode front := by
  refine ⟨fun unbound => ?_, ?_⟩
  · rw [prepare_withLineEnds glslToCg_isOneLine isLineEnd_return]
    exact (sameLayout_strip isLineEnd_return _ fun place mem bound =>
      Or.inr (unbound place mem bound)).fold_eq
  · rintro front mark rest rfl plain listed
    exact prepare_withReturns_of_mark plain listed mode rest

theorem prepare_return_sample :
    Source.prepare .glslToCg .substring
        (withLineEnds ['\r'] "/* \"a\n// b */ vec2 x;\n// c".toList) =
      Source.prepare .glslToCg .substring "/* \"a\n// b */ vec2 x;\n// c".toList ∧
    Source.prepare .glslToCg .substring (withLineEnds ['\r'] "vec2 x;\n// c\nvec3 y;".toList) =
      Source.prepare .glslToCg .substring "vec2 x;\n".toList :=
  ⟨(prepare_return .substring "/* \"a\n// b */ vec2 x;\n// c".toList).1 (by decide +kernel),
    (prepare_return .substring "vec2 x;\n// c\nvec3 y;".toList).2 "vec2 x;\n".toList "//".toList
      " c\nvec3 y;".toList (by decide) (by decide) (by decide)⟩

/-- A lone carriage return does not end a line comment, and all that follows is taken for a part
of it. -/
theorem prepare_return_lost :
    '\r' ∉ "// note\nvoid main(){}".toList ∧
      Source.prepare .glslToCg .substring (withLineEnds ['\r'] "// note\nvoid main(){}".toList) =
        [] ∧
      Source.prepare .glslToCg .substring "// note\nvoid main(){}".toList =
        " void main(){}".toList := by
  refine ⟨by decide, ?_, ?_⟩
  · rw [Source.prepare, strip_eq]
    decide +kernel
  · rw [Source.prepare, strip_eq]
    decide +kernel

end CrossShade
