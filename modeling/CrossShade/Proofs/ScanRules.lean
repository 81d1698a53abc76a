import CrossShade.Proofs.Unmarked

/-!
The rules of the scan for comments, said apart from any way to follow them. At each place of a text
one rule applies: it takes something off the text, leaves something in its place, and the scan goes
on behind it.

* `Closes`: which quote of a line ends a literal.
* `Takes`: the rules, with what each of them takes and leaves.
* `Scans`: a text taken off rule by rule, and what is left of it.
* `strip_by_rules`: at each place exactly one rule applies, in exactly one way, and following the
  rules is stripping.
-/

namespace CrossShade.Comment

/-! ### Literals -/

/-- The text up to its first line end. -/
def firstLine (text : Text) : Text :=
  text.takeWhile (· != '\n')

/-- Whether what follows the text is escaped. A backslash escapes the character behind it and the
two are read as one, so the second of two backslashes escapes nothing. `escaped` says the same of
the text itself. -/
def escapes (escaped : Bool) (text : Text) : Bool :=
  text.foldl (fun escaped c => c == '\\' && !escaped) escaped

/-- A quote stands on the line right behind `front`. -/
def QuoteBehind (line front : Text) : Prop :=
  front ++ ['"'] <+: line

/-- The quote behind `inner` ends a literal that has the line behind its opening quote: it is the
first one that is not escaped or, if all of them are, the last one. `escaped` tells that the first
character of the line is escaped, which it is not where a literal begins. -/
inductive Closes (escaped : Bool) (line inner : Text) : Prop where
  | first (quote : QuoteBehind line inner) (plain : escapes escaped inner = false)
      (earliest : ∀ other, QuoteBehind line other → escapes escaped other = false →
        inner.length ≤ other.length)
  | last (quote : QuoteBehind line inner)
      (allEscaped : ∀ other, QuoteBehind line other → escapes escaped other = true)
      (latest : ∀ other, QuoteBehind line other → other.length ≤ inner.length)

section Literals

variable {escaped : Bool} {c : Char} {line inner text : Text} {cut : Text × Text}

@[simp] theorem firstLine_nil : firstLine [] = [] := rfl

@[simp] theorem firstLine_lineEnd (text : Text) : firstLine ('\n' :: text) = [] := rfl

theorem firstLine_cons (inLine : c ≠ '\n') (text : Text) :
    firstLine (c :: text) = c :: firstLine text :=
  List.takeWhile_cons_of_pos (by simpa using inLine)

theorem quoteBehind_cons {front : Text} :
    QuoteBehind (c :: line) front ↔
      (front = [] ∧ c = '"') ∨ ∃ later, front = c :: later ∧ QuoteBehind line later := by
  cases front with
  | nil => simp [QuoteBehind, eq_comm]
  | cons d front => simp [QuoteBehind, List.cons_prefix_cons]

theorem QuoteBehind.mem {front : Text} (quote : QuoteBehind line front) : '"' ∈ line :=
  quote.subset (by simp)

theorem Closes.quote (closes : Closes escaped line inner) : QuoteBehind line inner := by
  cases closes with
  | first quote => exact quote
  | last quote => exact quote

/-- Only one quote ends a literal. -/
theorem Closes.unique {other : Text} (closes : Closes escaped line inner)
    (again : Closes escaped line other) : inner = other := by
  have same : inner.length = other.length := by
    cases closes with
    | first quote plain earliest =>
        cases again with
        | first quote' plain' earliest' =>
            exact Nat.le_antisymm (earliest other quote' plain') (earliest' inner quote plain)
        | last quote' allEscaped =>
            rw [allEscaped inner quote] at plain
            cases plain
    | last quote allEscaped latest =>
        cases again with
        | first quote' plain' =>
            rw [allEscaped other quote'] at plain'
            cases plain'
        | last quote' allEscaped' latest' =>
            exact Nat.le_antisymm (latest' inner quote) (latest other quote')
  have inside : inner ++ ['"'] <+: other ++ ['"'] :=
    List.prefix_of_prefix_length_le closes.quote again.quote (by simp [same])
  exact List.append_cancel_right (inside.eq_of_length (by simp [same]))

/-- A character that ends no literal may be put in front. -/
theorem Closes.cons (goesOn : c = '"' → escaped = true)
    (closes : Closes (c == '\\' && !escaped) line inner) :
    Closes escaped (c :: line) (c :: inner) := by
  have behind : ∀ {front}, QuoteBehind line front → QuoteBehind (c :: line) (c :: front) :=
    fun quote => quoteBehind_cons.mpr (Or.inr ⟨_, rfl, quote⟩)
  cases closes with
  | first quote plain earliest =>
      refine .first (behind quote) plain ?_
      intro other found unescaped
      rcases quoteBehind_cons.mp found with ⟨rfl, here⟩ | ⟨later, rfl, further⟩
      · rw [goesOn here] at unescaped
        cases unescaped
      · exact Nat.succ_le_succ (earliest later further unescaped)
  | last quote allEscaped latest =>
      refine .last (behind quote) ?_ ?_
      · intro other found
        rcases quoteBehind_cons.mp found with ⟨rfl, here⟩ | ⟨later, rfl, further⟩
        · exact goesOn here
        · exact allEscaped later further
      · intro other found
        rcases quoteBehind_cons.mp found with ⟨rfl, -⟩ | ⟨later, rfl, further⟩
        · exact Nat.zero_le _
        · exact Nat.succ_le_succ (latest later further)

theorem literalEnd_eq_none_iff : literalEnd escaped text = none ↔ '"' ∉ firstLine text := by
  induction text generalizing escaped with
  | nil => simp [literalEnd]
  | cons c rest ih =>
      by_cases ends : c = '\n'
      · subst ends
        simp [literalEnd_cons_lineEnd]
      rw [firstLine_cons ends]
      by_cases quote : c = '"'
      · subst quote
        cases escaped with
        | false => simp [literalEnd_cons_quote]
        | true => simp [literalEnd_cons_escaped ends]
      · simp [literalEnd_cons_other ends quote, ih, Ne.symm quote]

/-- The quote at which a literal is cut is the one that ends it. -/
theorem closes_of_literalEnd (ends : literalEnd escaped text = some cut) :
    ∃ inner, cut.1 = inner ++ ['"'] ∧ Closes escaped (firstLine text) inner := by
  induction text generalizing escaped cut with
  | nil => cases ends
  | cons c rest ih =>
      by_cases lineEnd : c = '\n'
      · rw [lineEnd, literalEnd_cons_lineEnd] at ends
        cases ends
      rw [firstLine_cons lineEnd]
      by_cases quote : c = '"'
      · have here : QuoteBehind (c :: firstLine rest) [] :=
          quoteBehind_cons.mpr (Or.inl ⟨rfl, quote⟩)
        subst quote
        cases escaped with
        | false =>
            cases ends
            exact ⟨[], rfl, .first here rfl fun _ _ _ => Nat.zero_le _⟩
        | true =>
            rw [literalEnd_cons_escaped lineEnd, if_pos rfl] at ends
            cases found : literalEnd false rest with
            | some inner =>
                rw [found] at ends
                cases ends
                obtain ⟨inside, eq, closes⟩ := ih found
                exact ⟨'"' :: inside, congrArg ('"' :: ·) eq, Closes.cons (fun _ => rfl) closes⟩
            | none =>
                -- No quote follows on the line, so the escaped one is the last.
                rw [found] at ends
                cases ends
                have noneLater := literalEnd_eq_none_iff.mp found
                have only : ∀ other, QuoteBehind ('"' :: firstLine rest) other → other = [] := by
                  intro other behind
                  rcases quoteBehind_cons.mp behind with ⟨rfl, -⟩ | ⟨later, -, behind⟩
                  · rfl
                  · exact absurd behind.mem noneLater
                refine ⟨[], rfl, .last here ?_ ?_⟩
                · intro other behind
                  rw [only other behind]
                  rfl
                · intro other behind
                  rw [only other behind]
      · rw [literalEnd_cons_other lineEnd quote] at ends
        obtain ⟨inner, found, rfl⟩ := Option.map_eq_some_iff.mp ends
        obtain ⟨inside, eq, closes⟩ := ih found
        exact ⟨c :: inside, congrArg (c :: ·) eq, closes.cons fun same => absurd same quote⟩

end Literals

/-! ### Runs and blocks -/

/-- A quoted run: two quotes and no other between them. -/
def IsRun (text : Text) : Prop :=
  ∃ inner, '"' ∉ inner ∧ text = '"' :: (inner ++ ['"'])

section Runs

variable {inner text rest : Text} {runs : List Text}

theorem runsEnd_append_quote (noQuote : '"' ∉ inner) (back : Text) :
    runsEnd false (inner ++ '"' :: back) =
      (runsEnd true back).map fun cut => (inner ++ '"' :: cut.1, cut.2) := by
  induction inner with
  | nil => rfl
  | cons c inner ih =>
      obtain ⟨first, later⟩ := List.ne_and_not_mem_of_not_mem_cons noQuote
      have other : (c == '"') = false := by simpa using first.symm
      rw [List.cons_append, runsEnd, other, ih later, Option.map_map]
      rfl

theorem runsEnd_eq_none (noQuote : '"' ∉ text) : runsEnd false text = none := by
  induction text with
  | nil => rfl
  | cons c text ih =>
      obtain ⟨first, later⟩ := List.ne_and_not_mem_of_not_mem_cons noQuote
      have other : (c == '"') = false := by simpa using first.symm
      rw [runsEnd, other, ih later]
      rfl

/-- A quote that begins no run is the last one. -/
theorem noQuote_of_longest (longest : ∀ run, IsRun run → ¬run <+: '"' :: text) : '"' ∉ text := by
  intro quote
  obtain ⟨inner, back, rfl, noQuote⟩ := List.eq_append_cons_of_mem quote
  exact longest ('"' :: (inner ++ ['"'])) ⟨inner, noQuote, rfl⟩ ⟨back, by simp⟩

/-- The chain of runs at the start of a text, as long as it can be. -/
theorem exists_chain (text : Text) :
    ∃ runs rest, text = List.flatten runs ++ rest ∧ (∀ run ∈ runs, IsRun run) ∧
      ∀ run, IsRun run → ¬run <+: rest := by
  induction text using (measure List.length).wf.induction with
  | h text ih =>
      by_cases more : ∃ run, IsRun run ∧ run <+: text
      · obtain ⟨run, isRun, back, rfl⟩ := more
        have shorter : back.length < (run ++ back).length := by
          obtain ⟨inner, -, rfl⟩ := isRun
          simp only [List.cons_append, List.length_cons, List.length_append]
          omega
        obtain ⟨runs, rest, rfl, quoted, longest⟩ := ih back shorter
        refine ⟨run :: runs, rest, by simp, ?_, longest⟩
        simpa using ⟨isRun, quoted⟩
      · exact ⟨[], text, rfl, by simp, fun run isRun begins => more ⟨run, isRun, begins⟩⟩

/-- The cut behind the last run is at the end of the longest chain. -/
theorem runsEnd_chain (quoted : ∀ run ∈ runs, IsRun run)
    (longest : ∀ run, IsRun run → ¬run <+: rest) :
    runsEnd true (runs.flatten ++ rest) = some (runs.flatten, rest) := by
  induction runs with
  | nil =>
      cases rest with
      | nil => rfl
      | cons c rest =>
          by_cases quote : c = '"'
          · subst quote
            simp [runsEnd, runsEnd_eq_none (noQuote_of_longest longest)]
          · simp [runsEnd, quote]
  | cons run runs ih =>
      have later := ih fun other mem => quoted other (List.mem_cons_of_mem _ mem)
      obtain ⟨inner, noQuote, rfl⟩ := quoted run List.mem_cons_self
      have shape : (('"' :: (inner ++ ['"'])) :: runs).flatten ++ rest =
          '"' :: (inner ++ '"' :: (runs.flatten ++ rest)) := by simp
      rw [shape, runsEnd, if_pos rfl, runsEnd_append_quote noQuote, later]
      simp [push]

theorem runsEnd_eq_none_iff : runsEnd false text = none ↔ '"' ∉ text := by
  refine ⟨fun none quote => ?_, runsEnd_eq_none⟩
  obtain ⟨inner, back, rfl, noQuote⟩ := List.eq_append_cons_of_mem quote
  obtain ⟨runs, rest, rfl, quoted, longest⟩ := exists_chain back
  rw [runsEnd_append_quote noQuote, runsEnd_chain quoted longest] at none
  cases none

theorem closingMark_prefix_cons {c : Char} :
    "*/".toList <+: c :: rest ↔ c = '*' ∧ rest.head? = some '/' := by
  cases rest with
  | nil => simp
  | cons d rest => simp [eq_comm]

theorem blockEnd_eq_none_iff : blockEnd text = none ↔ ¬"*/".toList <:+: text := by
  induction text with
  | nil => simp [blockEnd]
  | cons c rest ih =>
      rw [blockEnd, List.infix_cons_iff, closingMark_prefix_cons, not_or]
      by_cases closes : c = '*' ∧ rest.head? = some '/'
      · simp [closes]
      · simp [closes, ih]

/-- The mark at which a block comment is cut is the first that closes it. -/
theorem exists_inner_of_blockEnd {cut : Text × Text} (ends : blockEnd text = some cut) :
    ∃ inner, cut.1 = inner ++ "*/".toList ∧ ¬"*/".toList <:+: inner := by
  induction text generalizing cut with
  | nil => cases ends
  | cons c rest ih =>
      rw [blockEnd] at ends
      split at ends
      · cases ends
        exact ⟨[], rfl, by simp⟩
      · next goesOn =>
          obtain ⟨inner, found, rfl⟩ := Option.map_eq_some_iff.mp ends
          obtain ⟨inside, eq, closed⟩ := ih found
          refine ⟨c :: inside, congrArg (c :: ·) eq, ?_⟩
          rw [List.infix_cons_iff, not_or]
          refine ⟨fun begins => goesOn (closingMark_prefix_cons.mp (begins.trans ?_)), closed⟩
          rw [← blockEnd_append found, eq, List.append_assoc]
          exact List.prefix_append (c :: inside) _

end Runs

/-! ### The rules -/

/-- No rule but the last applies: what begins at the start of the text, if anything, is not
completed. -/
structure Idle (text : Text) : Prop where
  noBlock : ∀ rest, text = "/*".toList ++ rest → ¬"*/".toList <:+: rest
  noLine : ¬"//".toList <+: text
  noDirective : ¬"#".toList <+: text
  noLiteral : ∀ rest, text = '"' :: rest → '"' ∉ firstLine rest
  noVerbatim : ∀ rest, text = '@' :: '"' :: rest → '"' ∉ rest

/-- `Takes text left rest`: at the start of `text` a rule applies that leaves `left`, and the scan
goes on with `rest`. -/
inductive Takes : Text → Text → Text → Prop where
  /-- A block comment goes up to the first mark that closes it. -/
  | block {inner rest : Text} (closed : ¬"*/".toList <:+: inner) :
      Takes ("/*".toList ++ (inner ++ ("*/".toList ++ rest))) [] rest
  /-- A line comment goes up to the line end, which stays. -/
  | line {inner rest : Text} (oneLine : '\n' ∉ inner) :
      Takes ("//".toList ++ (inner ++ '\n' :: rest)) ['\n'] rest
  | lastLine {inner : Text} (oneLine : '\n' ∉ inner) : Takes ("//".toList ++ inner) [] []
  /-- A directive goes with its line end. -/
  | directive {inner rest : Text} (oneLine : '\n' ∉ inner) :
      Takes ("#".toList ++ (inner ++ '\n' :: rest)) [] rest
  | lastDirective {inner : Text} (oneLine : '\n' ∉ inner) : Takes ("#".toList ++ inner) [] []
  /-- A literal stays as it is. -/
  | literal {inner rest : Text} (closes : Closes false (firstLine (inner ++ '"' :: rest)) inner) :
      Takes ('"' :: (inner ++ '"' :: rest)) ('"' :: (inner ++ ['"'])) rest
  /-- So does a verbatim literal, with all the runs that follow on each other. -/
  | verbatim {runs : List Text} {rest : Text} (nonempty : runs ≠ [])
      (quoted : ∀ run ∈ runs, IsRun run) (longest : ∀ run, IsRun run → ¬run <+: rest) :
      Takes ('@' :: (runs.flatten ++ rest)) ('@' :: runs.flatten) rest
  /-- Where nothing else can be taken a character stays. -/
  | other {c : Char} {rest : Text} (idle : Idle (c :: rest)) : Takes (c :: rest) [c] rest

/-- `Scans text out`: the rules take the whole text, one after another, and leave `out`. -/
inductive Scans : Text → Text → Prop where
  | done : Scans [] []
  | step {text left rest out : Text} (takes : Takes text left rest) (later : Scans rest out) :
      Scans text (left ++ out)

section Rules

variable {text inner left rest : Text} {cut : Text × Text}

theorem lexemeAt_eq_none_iff : lexemeAt text = none ↔ Idle text := by
  constructor
  · intro none
    refine ⟨?_, ?_, ?_, ?_, ?_⟩
    · rintro rest rfl
      exact blockEnd_eq_none_iff.mp (Option.map_eq_none_iff.mp none)
    · rintro ⟨rest, rfl⟩
      cases none
    · rintro ⟨rest, rfl⟩
      cases none
    · rintro rest rfl
      exact literalEnd_eq_none_iff.mp (Option.map_eq_none_iff.mp none)
    · rintro rest rfl
      exact runsEnd_eq_none_iff.mp (Option.map_eq_none_iff.mp none)
  · intro idle
    unfold lexemeAt
    split
    · next rest =>
        rw [blockEnd_eq_none_iff.mpr (idle.noBlock rest rfl)]
        rfl
    · next rest => exact absurd ⟨rest, rfl⟩ idle.noLine
    · next rest => exact absurd ⟨rest, rfl⟩ idle.noDirective
    · next rest =>
        rw [literalEnd_eq_none_iff.mpr (idle.noLiteral rest rfl)]
        rfl
    · next rest =>
        rw [runsEnd_eq_none_iff.mpr (idle.noVerbatim rest rfl)]
        rfl
    · rfl

/-- A literal goes on to the quote that ends it. -/
theorem literalEnd_of_closes {escaped : Bool}
    (closes : Closes escaped (firstLine (inner ++ '"' :: rest)) inner) :
    literalEnd escaped (inner ++ '"' :: rest) = some (inner ++ ['"'], rest) := by
  cases ends : literalEnd escaped (inner ++ '"' :: rest) with
  | none => exact absurd closes.quote.mem (literalEnd_eq_none_iff.mp ends)
  | some cut =>
      obtain ⟨inside, eq, again⟩ := closes_of_literalEnd ends
      have same := closes.unique again
      subst same
      have whole := literalEnd_append ends
      rw [eq, List.append_assoc, List.append_cancel_left_eq] at whole
      have behind : cut.2 = rest := (List.cons.inj whole).2
      rw [← eq, ← behind]

theorem lexemeAt_literal (closes : Closes false (firstLine (inner ++ '"' :: rest)) inner) :
    lexemeAt ('"' :: (inner ++ '"' :: rest)) = some ('"' :: (inner ++ ['"']), rest) := by
  rw [lexemeAt, literalEnd_of_closes closes]
  rfl

theorem lexemeAt_verbatim {runs : List Text} (nonempty : runs ≠ [])
    (quoted : ∀ run ∈ runs, IsRun run) (longest : ∀ run, IsRun run → ¬run <+: rest) :
    lexemeAt ('@' :: (runs.flatten ++ rest)) = some ('@' :: runs.flatten, rest) := by
  obtain ⟨run, more, rfl⟩ := List.exists_cons_of_ne_nil nonempty
  obtain ⟨inner, noQuote, rfl⟩ := quoted run List.mem_cons_self
  have later := runsEnd_chain (fun other mem => quoted other (List.mem_cons_of_mem _ mem)) longest
  have shape : (('"' :: (inner ++ ['"'])) :: more).flatten ++ rest =
      '"' :: (inner ++ '"' :: (more.flatten ++ rest)) := by simp
  rw [shape, lexemeAt, runsEnd_append_quote noQuote, later]
  simp [push]

/-- Where a lexeme begins a rule applies. -/
theorem exists_takes_of_lexemeAt (found : lexemeAt text = some cut) :
    ∃ left rest, Takes text left rest := by
  unfold lexemeAt at found
  split at found
  · obtain ⟨inner, ends, -⟩ := Option.map_eq_some_iff.mp found
    obtain ⟨inside, eq, closed⟩ := exists_inner_of_blockEnd ends
    rw [← blockEnd_append ends, eq, List.append_assoc]
    exact ⟨_, _, .block closed⟩
  · next behind =>
      by_cases several : '\n' ∈ behind
      · obtain ⟨inner, rest, rfl, oneLine⟩ := List.eq_append_cons_of_mem several
        exact ⟨_, _, .line oneLine⟩
      · exact ⟨_, _, .lastLine several⟩
  · next behind =>
      by_cases several : '\n' ∈ behind
      · obtain ⟨inner, rest, rfl, oneLine⟩ := List.eq_append_cons_of_mem several
        exact ⟨_, _, .directive oneLine⟩
      · exact ⟨_, _, .lastDirective several⟩
  · obtain ⟨inner, ends, -⟩ := Option.map_eq_some_iff.mp found
    obtain ⟨inside, eq, closes⟩ := closes_of_literalEnd ends
    rw [← literalEnd_append ends, eq, List.append_assoc] at closes ⊢
    exact ⟨_, _, .literal closes⟩
  · next behind =>
      obtain ⟨inner, ends, -⟩ := Option.map_eq_some_iff.mp found
      obtain ⟨runs, rest, eq, quoted, longest⟩ := exists_chain ('"' :: behind)
      have nonempty : runs ≠ [] := by
        rintro rfl
        rw [List.flatten_nil, List.nil_append] at eq
        subst eq
        rw [runsEnd_eq_none (noQuote_of_longest longest)] at ends
        cases ends
      rw [eq]
      exact ⟨_, _, .verbatim nonempty quoted longest⟩
  · cases found

theorem exists_takes (c : Char) (rest : Text) : ∃ left behind, Takes (c :: rest) left behind := by
  cases found : lexemeAt (c :: rest) with
  | none => exact ⟨[c], rest, .other (lexemeAt_eq_none_iff.mp found)⟩
  | some cut => exact exists_takes_of_lexemeAt found

/-- What is behind the lexeme or character at a place. -/
def behind (place : Text) : Text :=
  match lexemeAt place with
  | none => place.tail
  | some cut => cut.2

theorem leaves_behind_of_some (found : lexemeAt text = some cut)
    (remaining : remains cut.1 = left) : leaves text = left ∧ behind text = cut.2 := by
  rw [leaves, behind, found]
  exact ⟨remaining, rfl⟩

/-- A rule does what the scan does. -/
theorem Takes.leaves_behind (takes : Takes text left rest) :
    leaves text = left ∧ behind text = rest := by
  have slashes : "//".toList ∈ ["//".toList, "#".toList] := List.mem_cons_self
  have hash : "#".toList ∈ ["//".toList, "#".toList] := List.mem_cons_of_mem _ List.mem_cons_self
  cases takes with
  | block closed => exact leaves_behind_of_some (lexemeAt_block closed rest) rfl
  | line oneLine =>
      exact leaves_behind_of_some (lexemeAt_line slashes oneLine rest) (remains_line _)
  | lastLine oneLine =>
      exact leaves_behind_of_some (lexemeAt_last_line slashes oneLine)
        (remains_last_line slashes oneLine)
  | directive oneLine => exact leaves_behind_of_some (lexemeAt_line hash oneLine rest) rfl
  | lastDirective oneLine =>
      exact leaves_behind_of_some (lexemeAt_last_line hash oneLine) (remains_last_line hash oneLine)
  | literal closes => exact leaves_behind_of_some (lexemeAt_literal closes) rfl
  | verbatim nonempty quoted longest =>
      exact leaves_behind_of_some (lexemeAt_verbatim nonempty quoted longest) rfl
  | other idle =>
      rw [leaves, behind, lexemeAt_eq_none_iff.mpr idle]
      exact ⟨rfl, rfl⟩

/-- At each place exactly one rule applies, and in one way. -/
theorem existsUnique_takes (c : Char) (rest : Text) :
    ∃! step : Text × Text, Takes (c :: rest) step.1 step.2 := by
  obtain ⟨left, after, takes⟩ := exists_takes c rest
  obtain ⟨left_eq, after_eq⟩ := takes.leaves_behind
  refine ⟨(left, after), takes, ?_⟩
  intro step again
  obtain ⟨sameLeft, sameAfter⟩ := again.leaves_behind
  exact Prod.ext (sameLeft.symm.trans left_eq) (sameAfter.symm.trans after_eq)

theorem Takes.strip_eq (takes : Takes text left rest) : strip text = left ++ strip rest := by
  obtain ⟨rfl, rfl⟩ := takes.leaves_behind
  cases found : lexemeAt text with
  | some cut => rw [strip_of_some found, leaves, behind, found]
  | none =>
      cases text with
      | nil => rfl
      | cons c rest =>
          rw [strip_of_none found, leaves, behind, found]
          rfl

theorem Takes.length_lt (takes : Takes text left rest) : rest.length < text.length := by
  cases takes <;> simp <;> omega

theorem Scans.strip_eq {out : Text} (scans : Scans text out) : strip text = out := by
  induction scans with
  | done => exact strip_nil
  | step takes later ih => rw [takes.strip_eq, ih]

theorem scans_strip (text : Text) : Scans text (strip text) := by
  induction text using (measure List.length).wf.induction with
  | h text ih =>
      cases text with
      | nil =>
          rw [strip_nil]
          exact .done
      | cons c rest =>
          obtain ⟨left, after, takes⟩ := exists_takes c rest
          rw [takes.strip_eq]
          exact .step takes (ih after takes.length_lt)

end Rules

/-- **Stripping follows the rules.** At each place of a text exactly one rule applies, in exactly
one way, and what is left of a text is what the rules leave. -/
theorem strip_by_rules :
    (∀ c rest, ∃! step : Text × Text, Takes (c :: rest) step.1 step.2) ∧
      ∀ text out, strip text = out ↔ Scans text out := by
  refine ⟨existsUnique_takes, ?_⟩
  intro text out
  constructor
  · rintro rfl
    exact scans_strip text
  · exact Scans.strip_eq

/-- The one quote behind the first is escaped and ends the literal all the same, so what follows it
is a comment. -/
example : strip "s=\"a\\\" // b".toList = "s=\"a\\\" ".toList := by
  rw [strip_eq]
  decide +kernel

end CrossShade.Comment
