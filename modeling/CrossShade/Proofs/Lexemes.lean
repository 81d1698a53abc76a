import CrossShade.Comment
import CrossShade.Proofs.Memory

/-!
The scan for comments, character by character. Which lexeme stands at the start of a text is
settled by its first characters and by one look along the text for where it ends; `lexemeAt`
says so without patterns, and the scan takes such lexemes off one after another.

* `first_lexeme`: `lexemeAt` is the match of the pattern that comes first.
* `strip_of_none`, `strip_of_some`: at each place the scan keeps one character, or puts what
  remains of a lexeme in its place.
-/

namespace CrossShade.Comment

open CrossShade.Pattern

/-! ### Where lexemes end -/

/-- A text cut in two, with one more character in front. -/
def push (c : Char) (cut : Text × Text) : Text × Text :=
  (c :: cut.1, cut.2)

/-- A text cut behind the first mark that closes a block comment. -/
def blockEnd : Text → Option (Text × Text)
  | [] => none
  | c :: rest =>
      if c = '*' ∧ rest.head? = some '/' then some (['*', '/'], rest.tail)
      else (blockEnd rest).map (push c)

/-- A text cut behind its first line. -/
def lineEnd : Text → Text × Text
  | [] => ([], [])
  | c :: rest => if c = '\n' then ([c], rest) else push c (lineEnd rest)

/-- A text cut behind the quote that closes a literal: the first one on the line that is not
escaped, or else the last one. `escaped` tells that a backslash stands before the text. -/
def literalEnd : Bool → Text → Option (Text × Text)
  | _, [] => none
  | escaped, c :: rest =>
      if c = '\n' then none
      else if c = '"' ∧ escaped = false then some ([c], rest)
      else
        match literalEnd (c == '\\' && !escaped) rest with
        | some cut => some (push c cut)
        | none => if c = '"' then some ([c], rest) else none

/-- A text cut behind the last of the quoted runs that follow on each other. `closed` tells that
the text begins between two runs and not within one. -/
def runsEnd : Bool → Text → Option (Text × Text)
  | closed, [] => if closed then some ([], []) else none
  | true, c :: rest =>
      if c = '"' then
        match runsEnd false rest with
        | some cut => some (push c cut)
        | none => some ([], c :: rest)
      else some ([], c :: rest)
  | false, c :: rest => (runsEnd (c == '"') rest).map (push c)

/-- A text cut behind the lexeme at its start, if there is one. -/
def lexemeAt (text : Text) : Option (Text × Text) :=
  match text with
  | '/' :: '*' :: rest => (blockEnd rest).map fun cut => push '/' (push '*' cut)
  | '/' :: '/' :: rest => some (push '/' (push '/' (lineEnd rest)))
  | '#' :: rest => some (push '#' (lineEnd rest))
  | '"' :: rest => (literalEnd false rest).map (push '"')
  | '@' :: '"' :: rest => (runsEnd false rest).map fun cut => push '@' (push '"' cut)
  | _ => none

/-! ### Literals, one character at a time -/

section Literals

variable {c : Char} {rest : Text}

theorem literalEnd_cons_lineEnd (escaped : Bool) (rest : Text) :
    literalEnd escaped ('\n' :: rest) = none := rfl

theorem literalEnd_cons_quote (rest : Text) :
    literalEnd false ('"' :: rest) = some (['"'], rest) := rfl

theorem literalEnd_cons_other (inLine : c ≠ '\n') (noQuote : c ≠ '"') (escaped : Bool) :
    literalEnd escaped (c :: rest) = (literalEnd (c == '\\' && !escaped) rest).map (push c) := by
  rw [literalEnd, if_neg inLine, if_neg fun quote => noQuote quote.1]
  cases literalEnd (c == '\\' && !escaped) rest with
  | some cut => rfl
  | none => rw [if_neg noQuote]; rfl

/-- Behind a backslash any character of the line is passed over, but a quote that nothing behind
it closes is taken for the closing one. -/
theorem literalEnd_cons_escaped (inLine : c ≠ '\n') :
    literalEnd true (c :: rest) =
      ((literalEnd false rest).map (push c)).or (if c = '"' then some ([c], rest) else none) := by
  have plain : (c == '\\' && !true) = false := Bool.and_false _
  rw [literalEnd, if_neg inLine, if_neg fun quote => Bool.noConfusion quote.2, plain]
  cases literalEnd false rest <;> rfl

/-- Whether a literal is closed does not depend on how its first character is read. -/
theorem literalEnd_eq_none {escaped : Bool} {text : Text}
    (unclosed : literalEnd escaped text = none) (other : Bool) :
    literalEnd other text = none := by
  induction text generalizing escaped other with
  | nil => rfl
  | cons c rest ih =>
      by_cases inLine : c = '\n'
      · rw [inLine]
        exact literalEnd_cons_lineEnd other rest
      · by_cases quote : c = '"'
        · subst quote
          cases escaped with
          | false => cases unclosed
          | true =>
              rw [literalEnd_cons_escaped inLine, if_pos rfl, Option.or_eq_none_iff] at unclosed
              cases unclosed.2
        · rw [literalEnd_cons_other inLine quote, Option.map_eq_none_iff] at unclosed ⊢
          exact ih unclosed _

end Literals

/-! ### The first match -/

/-- The thread behind the first part of a cut. -/
def past (thread : Thread) (cut : Text × Text) : Thread :=
  ⟨thread.cursor.advance cut.1 cut.2, thread.captures⟩

theorem past_step (thread : Thread) (c : Char) (rest : Text) (cut : Text × Text) :
    past (thread.step c rest) cut = past thread (push c cut) := by
  simp only [past, Thread.step, Cursor.step_advance, push]

theorem past_nil (thread : Thread) : past thread ([], thread.cursor.rest) = thread := by
  simp only [past, Cursor.advance_nil]

theorem past_singleton (thread : Thread) (c : Char) (rest : Text) :
    past thread ([c], rest) = thread.step c rest :=
  (past_step thread c rest ([], rest)).symm.trans (past_nil _)

/-- A cut of the rest is a cut of the text. -/
theorem map_past_step (thread : Thread) (c : Char) (rest : Text) (cut : Option (Text × Text)) :
    cut.map (past (thread.step c rest)) = (cut.map (push c)).map (past thread) := by
  cases cut with
  | none => rfl
  | some cut => exact congrArg some (past_step thread c rest cut)

section Ends

variable {thread : Thread}

theorem first_blockEnd (behind : Text) (here : thread.cursor.rest = behind) :
    (spanWays false .all ((Regex.literal "*/".toList).ways .one) behind thread).first =
      (blockEnd behind).map (past thread) := by
  induction behind generalizing thread with
  | nil =>
      have other : ¬ "*/".toList <+: thread.cursor.rest := by simp [here]
      rw [spanWays, Ways.first_order_lazy, ways_literal_eq_none other]
      rfl
  | cons c rest ih =>
      have later := @ih (thread.step c rest) rfl
      have member : CharSet.all.has c = true := rfl
      rw [spanWays, Ways.first_order_lazy, if_pos member, later, map_past_step, blockEnd]
      split
      · next closes =>
          obtain ⟨rfl, next⟩ := closes
          obtain ⟨behind, rfl⟩ := List.head?_eq_some_iff.mp next
          have matched : (Regex.literal "*/".toList).ways .one thread =
              .one (past thread (['*', '/'], behind)) := ways_literal here
          rw [matched]
          rfl
      · next goesOn =>
          have other : ¬ "*/".toList <+: thread.cursor.rest := by
            rw [here]
            rintro ⟨behind, eq⟩
            obtain ⟨rfl, rfl⟩ := List.cons.inj eq
            exact goesOn ⟨rfl, rfl⟩
          rw [ways_literal_eq_none other, Ways.first_none, Option.none_or]

theorem first_restOfLine {behind : Text} (here : thread.cursor.rest = behind) :
    (restOfLine.ways .one thread).first = some (past thread (lineEnd behind)) := by
  have optional : ∀ thread, ((Regex.optional true (.char '\n')).ways .one thread).first =
      ((Regex.char '\n').ways .one thread).first.or (some thread) := fun _ => rfl
  rw [restOfLine, Regex.ways, Regex.ways, here]
  induction behind generalizing thread with
  | nil =>
      have stays := past_nil thread
      rw [here] at stays
      rw [spanWays, Ways.first_order_greedy, optional, Regex.char, ways_set_nil here, lineEnd,
        stays]
      rfl
  | cons c rest ih =>
      rw [spanWays, Ways.first_order_greedy, lineEnd]
      by_cases ends : c = '\n'
      · subst ends
        have only : (CharSet.except '\n').has '\n' = false := by decide
        rw [if_pos rfl, only, past_singleton, optional, ways_char_cons here, if_pos rfl]
        rfl
      · have member : (CharSet.except '\n').has c = true := CharSet.has_except.mpr ends
        have later := @ih (thread.step c rest) rfl
        rw [if_neg ends, if_pos member, later, past_step, Option.some_or]

/-- What follows the quote that opens a literal. -/
def literalWays : Thread → Ways :=
  loopWays true literalChar.ways ((Regex.char '"').ways .one)

theorem first_literalWays_eq (thread : Thread) :
    (literalWays thread).first =
      (((Regex.char '\\').ways ((Regex.set (.except '\n')).ways literalWays) thread).first.or
        ((Regex.set (.inter (.except '"') (.except '\n'))).ways literalWays thread).first).or
        ((Regex.char '"').ways .one thread).first := by
  have again : literalWays thread = .order true (literalChar.ways literalWays thread)
      ((Regex.char '"').ways .one thread) := loopWays_eq rfl thread
  rw [again]
  rfl

/-- Behind a backslash: the next character is passed over, and if that leads nowhere it is read as
if there were no backslash. -/
theorem first_escaped {behind : Text}
    (ih : ∀ later : Text, later.length < behind.length → ∀ {thread : Thread},
      thread.cursor.rest = later →
        (literalWays thread).first = (literalEnd false later).map (past thread))
    (here : thread.cursor.rest = behind) :
    ((Regex.set (.except '\n')).ways literalWays thread).first.or
        ((literalEnd false behind).map (past thread)) =
      (literalEnd true behind).map (past thread) := by
  cases behind with
  | nil =>
      rw [ways_set_nil here]
      rfl
  | cons c rest =>
      rw [ways_set_cons here]
      by_cases ends : c = '\n'
      · subst ends
        rfl
      have member : (CharSet.except '\n').has c = true := CharSet.has_except.mpr ends
      have later := @ih rest (Nat.lt_succ_self _) (thread.step c rest) rfl
      rw [if_pos member, later, literalEnd_cons_escaped ends, map_past_step]
      cases passed : literalEnd false rest with
      | some cut => rfl
      | none =>
          by_cases quote : c = '"'
          · subst quote
            rfl
          · rw [literalEnd_cons_other ends quote, literalEnd_eq_none passed, if_neg quote]
            rfl

theorem first_literalEnd (behind : Text) (here : thread.cursor.rest = behind) :
    (literalWays thread).first = (literalEnd false behind).map (past thread) := by
  induction behind using (measure List.length).wf.induction generalizing thread with
  | h behind ih =>
      cases behind with
      | nil =>
          have closing : ∀ c next, (Regex.char c).ways next thread = .none :=
            fun _ _ => ways_set_nil here
          rw [first_literalWays_eq, closing, closing, ways_set_nil here]
          rfl
      | cons c rest =>
          have later := @ih rest (Nat.lt_succ_self _) (thread.step c rest) rfl
          rw [first_literalWays_eq, ways_set_cons here, ways_char_cons here, ways_char_cons here]
          by_cases ends : c = '\n'
          · subst ends
            rfl
          by_cases quote : c = '"'
          · subst quote
            rw [literalEnd_cons_quote, Option.map_some, past_singleton]
            rfl
          have member : (CharSet.inter (.except '"') (.except '\n')).has c = true := by
            rw [CharSet.has, Bool.and_eq_true, CharSet.has_except, CharSet.has_except]
            exact ⟨quote, ends⟩
          rw [literalEnd_cons_other ends quote, if_neg quote, if_pos member, later,
            ← map_past_step, Ways.first_none, Option.or_none]
          by_cases slash : c = '\\'
          · subst slash
            rw [if_pos rfl]
            exact first_escaped (fun behind shorter => ih behind (Nat.lt_succ_of_lt shorter)) rfl
          · have plain : (c == '\\' && !false) = false := by simpa using slash
            rw [if_neg slash, plain, Ways.first_none, Option.none_or]

/-- A quoted run. -/
def run : Regex :=
  .concat [.char '"', .span true (.except '"'), .char '"']

theorem first_runsEnd (behind : Text) (here : thread.cursor.rest = behind) :
    (spanWays true (.except '"') ((Regex.char '"').ways (loopWays true run.ways .one)) behind
        thread).first = (runsEnd false behind).map (past thread) ∧
      (loopWays true run.ways .one thread).first = (runsEnd true behind).map (past thread) := by
  have goes : ∀ thread, (loopWays true run.ways .one thread).first =
      ((Regex.char '"').ways ((Regex.span true (.except '"')).ways ((Regex.char '"').ways
        (loopWays true run.ways .one))) thread).first.or (some thread) := by
    intro thread
    rw [loopWays_eq rfl]
    rfl
  have stays := past_nil thread
  rw [here] at stays
  induction behind generalizing thread with
  | nil =>
      have closing : ∀ next, (Regex.char '"').ways next thread = .none := fun _ => ways_set_nil here
      rw [spanWays, Ways.first_order_greedy, goes, closing, closing, runsEnd, runsEnd]
      exact ⟨rfl, congrArg some stays.symm⟩
  | cons c rest ih =>
      obtain ⟨within, between⟩ := @ih (thread.step c rest) rfl (past_nil _)
      rw [spanWays, Ways.first_order_greedy, goes, ways_char_cons here, ways_char_cons here]
      by_cases quote : c = '"'
      · subst quote
        have only : (CharSet.except '"').has '"' = false := by decide
        have opens : ((Regex.span true (.except '"')).ways ((Regex.char '"').ways
            (loopWays true run.ways .one)) (thread.step '"' rest)).first =
              (runsEnd false rest).map (past (thread.step '"' rest)) := within
        rw [if_pos rfl, if_pos rfl, only, between, opens, map_past_step, map_past_step]
        refine ⟨rfl, ?_⟩
        cases ended : runsEnd false rest with
        | none => simp [runsEnd, ended, stays]
        | some cut => simp [runsEnd, ended]
      · have member : (CharSet.except '"').has c = true := CharSet.has_except.mpr quote
        have notQuote : (c == '"') = false := by simpa using quote
        rw [if_neg quote, if_neg quote, if_pos member, within, map_past_step]
        refine ⟨?_, ?_⟩
        · simp [runsEnd, notQuote]
        · simp [runsEnd, quote, stays]

end Ends

/-! ### Lexemes -/

/-- What follows the mark that opens a block comment. -/
def blockWays : Thread → Ways :=
  (Regex.span false .all).ways ((Regex.literal "*/".toList).ways .one)

/-- What follows the mark of a line comment or a directive. -/
def lineWays : Thread → Ways :=
  restOfLine.ways .one

/-- What follows the mark that opens a verbatim literal. -/
def verbatimWays : Thread → Ways :=
  (Regex.span true (.except '"')).ways ((Regex.char '"').ways (loopWays true run.ways .one))

theorem first_blockWays (thread : Thread) :
    (blockWays thread).first = (blockEnd thread.cursor.rest).map (past thread) :=
  first_blockEnd thread.cursor.rest rfl

theorem first_lineWays (thread : Thread) :
    (lineWays thread).first = (some (lineEnd thread.cursor.rest)).map (past thread) :=
  first_restOfLine rfl

theorem first_literalWays (thread : Thread) :
    (literalWays thread).first = (literalEnd false thread.cursor.rest).map (past thread) :=
  first_literalEnd thread.cursor.rest rfl

theorem first_verbatimWays (thread : Thread) :
    (verbatimWays thread).first = (runsEnd false thread.cursor.rest).map (past thread) :=
  (first_runsEnd thread.cursor.rest rfl).1

/-- The alternatives of the scan, each with the mark it begins with. -/
theorem ways_lexeme (thread : Thread) :
    lexeme.ways .one thread =
      .either ((Regex.literal "/*".toList).ways blockWays thread)
        (.either ((Regex.literal "//".toList).ways lineWays thread)
          (.either ((Regex.literal "#".toList).ways lineWays thread)
            (.either ((Regex.literal "\"".toList).ways literalWays thread)
              ((Regex.literal "@\"".toList).ways verbatimWays thread)))) := rfl

section Marked

variable {cursor : Cursor} {tail : Thread → Ways}

theorem first_unmarked {mark : Text} (other : ¬ mark <+: cursor.rest) :
    ((Regex.literal mark).ways tail ⟨cursor, []⟩).first = none := by
  have nothing : (Regex.literal mark).ways tail ⟨cursor, []⟩ = .none :=
    ways_literal_eq_none other
  rw [nothing, Ways.first_none]

/-- A mark and what follows it up to the end of the lexeme. -/
theorem first_marked {mark rest : Text} (cut : Text → Option (Text × Text))
    (ends : ∀ thread : Thread, (tail thread).first = (cut thread.cursor.rest).map (past thread))
    (here : cursor.rest = mark ++ rest) :
    ((Regex.literal mark).ways tail ⟨cursor, []⟩).first =
      (cut rest).map fun cut => past ⟨cursor, []⟩ (mark ++ cut.1, cut.2) := by
  have marked : (Regex.literal mark).ways tail ⟨cursor, []⟩ =
      tail ⟨cursor.advance mark rest, []⟩ := ways_literal here
  rw [marked, ends]
  refine congrArg (Option.map · (cut rest)) (funext fun cut => ?_)
  simp only [past, Cursor.advance_advance]

end Marked

/-- **The lexeme at the start of a text** is the match of the pattern that comes first. -/
theorem first_lexeme (cursor : Cursor) :
    lexeme.first cursor = (lexemeAt cursor.rest).map (past ⟨cursor, []⟩) := by
  rw [Regex.first, ways_lexeme]
  simp only [Ways.first_either]
  unfold lexemeAt
  split
  · next rest here =>
      rw [first_marked blockEnd first_blockWays here, first_unmarked (by simp [here]),
        first_unmarked (by simp [here]), first_unmarked (by simp [here]),
        first_unmarked (by simp [here])]
      cases blockEnd rest <;> rfl
  · next rest here =>
      rw [first_unmarked (by simp [here]), first_marked (some <| lineEnd ·) first_lineWays here]
      rfl
  · next rest here =>
      rw [first_unmarked (by simp [here]), first_unmarked (by simp [here]),
        first_marked (some <| lineEnd ·) first_lineWays here]
      rfl
  · next rest here =>
      rw [first_unmarked (by simp [here]), first_unmarked (by simp [here]),
        first_unmarked (by simp [here]), first_marked (literalEnd false) first_literalWays here,
        first_unmarked (by simp [here])]
      cases literalEnd false rest <;> rfl
  · next rest here =>
      rw [first_unmarked (by simp [here]), first_unmarked (by simp [here]),
        first_unmarked (by simp [here]), first_unmarked (by simp [here]),
        first_marked (runsEnd false) first_verbatimWays here]
      cases runsEnd false rest <;> rfl
  · next noBlock noLine noDirective noLiteral noVerbatim =>
      rw [first_unmarked fun ⟨rest, eq⟩ => noBlock rest eq.symm,
        first_unmarked fun ⟨rest, eq⟩ => noLine rest eq.symm,
        first_unmarked fun ⟨rest, eq⟩ => noDirective rest eq.symm,
        first_unmarked fun ⟨rest, eq⟩ => noLiteral rest eq.symm,
        first_unmarked fun ⟨rest, eq⟩ => noVerbatim rest eq.symm]
      rfl

/-! ### Cuts -/

section Cuts

variable {text : Text} {cut : Text × Text}

theorem blockEnd_append (ends : blockEnd text = some cut) : cut.1 ++ cut.2 = text := by
  induction text generalizing cut with
  | nil => cases ends
  | cons c rest ih =>
      rw [blockEnd] at ends
      split at ends
      · next closes =>
          obtain ⟨rfl, next⟩ := closes
          obtain ⟨behind, rfl⟩ := List.head?_eq_some_iff.mp next
          cases ends
          rfl
      · obtain ⟨inner, eq, rfl⟩ := Option.map_eq_some_iff.mp ends
        exact congrArg (c :: ·) (ih eq)

theorem lineEnd_append (text : Text) : (lineEnd text).1 ++ (lineEnd text).2 = text := by
  induction text with
  | nil => rfl
  | cons c rest ih =>
      rw [lineEnd]
      split
      · rfl
      · exact congrArg (c :: ·) ih

theorem literalEnd_append {escaped : Bool} (ends : literalEnd escaped text = some cut) :
    cut.1 ++ cut.2 = text := by
  induction text generalizing escaped cut with
  | nil => cases ends
  | cons c rest ih =>
      rw [literalEnd] at ends
      split at ends
      · cases ends
      · split at ends
        · cases ends
          rfl
        · split at ends
          · next inner eq =>
              cases ends
              exact congrArg (c :: ·) (ih eq)
          · split at ends
            · cases ends
              rfl
            · cases ends

theorem runsEnd_append {closed : Bool} (ends : runsEnd closed text = some cut) :
    cut.1 ++ cut.2 = text := by
  induction text generalizing closed cut with
  | nil =>
      cases closed with
      | true =>
          cases ends
          rfl
      | false => cases ends
  | cons c rest ih =>
      cases closed with
      | true =>
          rw [runsEnd] at ends
          split at ends
          · split at ends
            · next inner eq =>
                cases ends
                exact congrArg (c :: ·) (ih eq)
            · cases ends
              rfl
          · cases ends
            rfl
      | false =>
          obtain ⟨inner, eq, rfl⟩ := Option.map_eq_some_iff.mp ends
          exact congrArg (c :: ·) (ih eq)

/-- A lexeme stands at the start of the text and is not empty. -/
theorem lexemeAt_append (found : lexemeAt text = some cut) :
    cut.1 ++ cut.2 = text ∧ cut.1 ≠ [] := by
  unfold lexemeAt at found
  split at found
  · obtain ⟨inner, eq, rfl⟩ := Option.map_eq_some_iff.mp found
    exact ⟨congrArg ('/' :: '*' :: ·) (blockEnd_append eq), List.cons_ne_nil _ _⟩
  · next rest =>
      cases found
      exact ⟨congrArg ('/' :: '/' :: ·) (lineEnd_append rest), List.cons_ne_nil _ _⟩
  · next rest =>
      cases found
      exact ⟨congrArg ('#' :: ·) (lineEnd_append rest), List.cons_ne_nil _ _⟩
  · obtain ⟨inner, eq, rfl⟩ := Option.map_eq_some_iff.mp found
    exact ⟨congrArg ('"' :: ·) (literalEnd_append eq), List.cons_ne_nil _ _⟩
  · obtain ⟨inner, eq, rfl⟩ := Option.map_eq_some_iff.mp found
    exact ⟨congrArg ('@' :: '"' :: ·) (runsEnd_append eq), List.cons_ne_nil _ _⟩
  · cases found

end Cuts

/-! ### What is left of a text -/

/-- The places at which the scan looks for a lexeme, each as the text from there on. The first
`skip` characters belong to a lexeme that is already found. -/
def placesFrom : Nat → Text → List Text
  | _, [] => []
  | skip + 1, _ :: rest => placesFrom skip rest
  | 0, c :: rest =>
      (c :: rest) ::
        match lexemeAt (c :: rest) with
        | none => placesFrom 0 rest
        | some cut => placesFrom (cut.1.length - 1) rest

/-- The places of a text at which the scan looks for a lexeme. -/
def places (text : Text) : List Text :=
  placesFrom 0 text

/-- What the scan leaves at a place before it goes on: the first character, or what remains of the
lexeme. -/
def leaves (place : Text) : Text :=
  match lexemeAt place with
  | none => place.take 1
  | some cut => remains cut.1

theorem flatMap_firstPieces (text : Text) (skip : Nat) (closed : Bool) {cursor : Cursor}
    (here : cursor.rest = text) :
    (lexeme.firstPieces skip closed cursor text).flatMap
        (Piece.replaced fun found => remains found.text) =
      (placesFrom skip text).flatMap leaves := by
  induction text generalizing skip closed cursor with
  | nil =>
      cases skip with
      | succ skip => rfl
      | zero =>
          rw [Regex.firstPieces, first_lexeme, here]
          rfl
  | cons c rest ih =>
      cases skip with
      | succ skip => exact ih skip true rfl
      | zero =>
          rw [Regex.firstPieces, placesFrom, List.flatMap_cons, leaves, first_lexeme, here]
          cases found : lexemeAt (c :: rest) with
          | none => exact congrArg (c :: ·) (ih 0 false rfl)
          | some cut =>
              obtain ⟨whole, nonempty⟩ := lexemeAt_append found
              obtain ⟨d, taken, eq⟩ := List.exists_cons_of_ne_nil nonempty
              have reached : cursor.textTo (past ⟨cursor, []⟩ cut).cursor = cut.1 :=
                Cursor.Reaches.textTo_eq cursor (here.trans whole.symm)
              have later := @ih taken.length true (cursor.step c rest) rfl
              simp only [Option.map_some, reached, eq, List.length_cons, List.flatMap_cons,
                Piece.replaced, later, Nat.add_sub_cancel]

/-- **The scan without patterns**: what is left of a text is what is left at its places. -/
theorem strip_eq (text : Text) : strip text = (places text).flatMap leaves := by
  rw [strip, Regex.replaceAll_eq, pieces_eq rfl]
  exact flatMap_firstPieces text 0 false rfl

theorem placesFrom_eq (text : Text) (skip : Nat) :
    placesFrom skip text = places (text.drop skip) := by
  induction text generalizing skip with
  | nil =>
      rw [List.drop_nil, places]
      cases skip <;> rfl
  | cons c rest ih =>
      cases skip with
      | zero => rfl
      | succ skip => exact ih skip

section Places

variable {c : Char} {rest text : Text} {cut : Text × Text}

theorem places_of_none (none : lexemeAt (c :: rest) = none) :
    places (c :: rest) = (c :: rest) :: places rest := by
  rw [places, placesFrom, none, places]

theorem places_of_some (found : lexemeAt text = some cut) : places text = text :: places cut.2 := by
  obtain ⟨whole, nonempty⟩ := lexemeAt_append found
  obtain ⟨c, taken, eq⟩ := List.exists_cons_of_ne_nil nonempty
  rw [eq, List.cons_append] at whole
  subst whole
  have later : placesFrom (cut.1.length - 1) (taken ++ cut.2) = places cut.2 := by
    rw [placesFrom_eq, eq, List.length_cons, Nat.add_sub_cancel, List.drop_left]
  rw [places, placesFrom, found]
  exact congrArg (_ :: ·) later

@[simp] theorem strip_nil : strip [] = [] := strip_eq []

/-- The scan keeps a character at which no lexeme begins. -/
theorem strip_of_none (none : lexemeAt (c :: rest) = none) :
    strip (c :: rest) = c :: strip rest := by
  rw [strip_eq, places_of_none none, List.flatMap_cons, leaves, none, strip_eq]
  rfl

/-- The scan puts in place of a lexeme what remains of it and goes on behind it. -/
theorem strip_of_some (found : lexemeAt text = some cut) :
    strip text = remains cut.1 ++ strip cut.2 := by
  rw [strip_eq, places_of_some found, List.flatMap_cons, leaves, found, strip_eq]

end Places

end CrossShade.Comment
