import CrossShade.Pattern.Match

/-!
What a match is, apart from how it is found. `Regex.Matches` says which threads a pattern leads
to, in no order and with no memory of what was tried; `Rewrites` says of a text and a result
that the result keeps some characters of the text and has the values of matches in the place of
the others.

* `explore_found`: exploration finds nothing but what the pattern matches.
* `replaceAll_rewrites`: replacement keeps characters and replaces matches, and does nothing
  else. What has to hold of every replaced text is proved by induction on this.
-/

namespace CrossShade.Pattern

/-! ### Places further on -/

/-- The place behind the characters `taken`, where `rest` goes on. -/
def Cursor.advance (cursor : Cursor) (taken rest : Text) : Cursor :=
  ⟨cursor.offset + taken.length, taken.getLast?.or cursor.before, rest⟩

@[simp] theorem Cursor.advance_nil (cursor : Cursor) : cursor.advance [] cursor.rest = cursor := by
  simp [Cursor.advance]

@[simp] theorem Cursor.advance_advance (cursor : Cursor) (front back middle rest : Text) :
    (cursor.advance front middle).advance back rest = cursor.advance (front ++ back) rest := by
  simp [Cursor.advance, List.getLast?_append, Option.or_assoc, Nat.add_assoc]

theorem Cursor.step_advance (cursor : Cursor) (c : Char) (rest taken later : Text) :
    (cursor.step c rest).advance taken later = cursor.advance (c :: taken) later :=
  Cursor.advance_advance cursor [c] taken rest later

/-- The second place is the first one or stands further on in the same text. -/
def Cursor.Reaches (start stop : Cursor) : Prop :=
  ∃ taken, start.rest = taken ++ stop.rest ∧ stop = start.advance taken stop.rest

namespace Cursor.Reaches

variable {start middle stop cursor : Cursor}

theorem refl (cursor : Cursor) : cursor.Reaches cursor :=
  ⟨[], rfl, by simp⟩

theorem trans (one : start.Reaches middle) (other : middle.Reaches stop) : start.Reaches stop := by
  obtain ⟨front, wholeFront, eqMiddle⟩ := one
  obtain ⟨back, wholeBack, eqStop⟩ := other
  refine ⟨front ++ back, by rw [wholeFront, wholeBack, List.append_assoc], ?_⟩
  rw [eqStop, eqMiddle, Cursor.advance_advance]
  rfl

theorem step {c : Char} {rest : Text} (here : cursor.rest = c :: rest) :
    cursor.Reaches (cursor.step c rest) :=
  ⟨[c], here, rfl⟩

/-- What lies between a place and one further on is what was taken. -/
theorem textTo_eq (cursor : Cursor) {taken rest : Text} (here : cursor.rest = taken ++ rest) :
    cursor.textTo (cursor.advance taken rest) = taken := by
  simp [Cursor.textTo, Cursor.advance, here]

end Cursor.Reaches

/-! ### What a pattern matches -/

/-- `count` rounds one after another. -/
def Rounds (round : Thread → Thread → Prop) : Nat → Thread → Thread → Prop
  | 0, start, stop => stop = start
  | count + 1, start, stop => ∃ middle, round start middle ∧ Rounds round count middle stop

/-- The pattern leads from one thread to the other. -/
def Regex.Matches : Regex → Thread → Thread → Prop
  | .empty, start, stop => stop = start
  | .set chars, start, stop =>
      ∃ c rest, start.cursor.rest = c :: rest ∧ chars.has c = true ∧ stop = start.step c rest
  | .span _ chars, start, stop =>
      ∃ taken rest, start.cursor.rest = taken ++ rest ∧ (∀ c ∈ taken, chars.has c = true) ∧
        stop = ⟨start.cursor.advance taken rest, start.captures⟩
  | .anchor place, start, stop => start.cursor.satisfies place = true ∧ stop = start
  | .seq first second, start, stop =>
      ∃ middle, first.Matches start middle ∧ second.Matches middle stop
  | .alt first second, start, stop => first.Matches start stop ∨ second.Matches start stop
  | .times _ least most body, start, stop =>
      ∃ count, least ≤ count ∧ (∀ bound ∈ most, count ≤ max least bound) ∧
        Rounds body.Matches count start stop
  | .group index body, start, stop =>
      ∃ inner, body.Matches start inner ∧ stop = inner.close index start.cursor

theorem Regex.span_matches_self (greedy : Bool) (chars : CharSet) (thread : Thread) :
    (Regex.span greedy chars).Matches thread thread :=
  ⟨[], thread.cursor.rest, rfl, by simp, by simp⟩

theorem Regex.span_matches_step {greedy : Bool} {chars : CharSet} {c : Char} {rest : Text}
    {start stop : Thread} (here : start.cursor.rest = c :: rest) (member : chars.has c = true)
    (later : (Regex.span greedy chars).Matches (start.step c rest) stop) :
    (Regex.span greedy chars).Matches start stop := by
  obtain ⟨taken, behind, whole, members, rfl⟩ := later
  refine ⟨c :: taken, behind, ?_, ?_, ?_⟩
  · rw [here]
    exact congrArg (c :: ·) whole
  · simpa [member] using members
  · simp only [Thread.step, Cursor.step_advance]

theorem Rounds.reaches {round : Thread → Thread → Prop}
    (each : ∀ start stop, round start stop → start.cursor.Reaches stop.cursor) {count : Nat}
    {start stop : Thread} (rounds : Rounds round count start stop) :
    start.cursor.Reaches stop.cursor := by
  induction count generalizing start with
  | zero => exact rounds ▸ .refl _
  | succ count ih =>
      obtain ⟨middle, one, others⟩ := rounds
      exact (each _ _ one).trans (ih others)

theorem Rounds.append {round : Thread → Thread → Prop} {count more : Nat}
    {start middle stop : Thread} (rounds : Rounds round count start middle)
    (others : Rounds round more middle stop) : Rounds round (count + more) start stop := by
  induction count generalizing start with
  | zero =>
      obtain rfl : middle = start := rounds
      simpa using others
  | succ count ih =>
      obtain ⟨first, one, later⟩ := rounds
      rw [Nat.succ_add]
      exact ⟨first, one, ih later⟩

/-- A match only moves forward. -/
theorem Regex.Matches.reaches {regex : Regex} {start stop : Thread}
    (matched : regex.Matches start stop) : start.cursor.Reaches stop.cursor := by
  induction regex generalizing start stop with
  | empty => exact matched ▸ .refl _
  | set chars =>
      obtain ⟨c, rest, here, -, rfl⟩ := matched
      exact .step here
  | span greedy chars =>
      obtain ⟨taken, rest, here, -, rfl⟩ := matched
      exact ⟨taken, here, rfl⟩
  | anchor place => exact matched.2 ▸ .refl _
  | seq first second one other =>
      obtain ⟨middle, front, back⟩ := matched
      exact (one front).trans (other back)
  | alt first second one other => exact matched.elim one other
  | times greedy least most body ih =>
      obtain ⟨count, -, -, rounds⟩ := matched
      exact rounds.reaches fun _ _ => ih
  | group index body ih =>
      obtain ⟨inner, enclosed, rfl⟩ := matched
      exact (ih enclosed : start.cursor.Reaches inner.cursor)

/-! ### Characters in a row -/

@[simp] theorem CharSet.has_single {c d : Char} : (CharSet.single c).has d = true ↔ d = c := by
  simp only [CharSet.single, CharSet.has, Bool.and_eq_true, decide_eq_true_eq]
  constructor
  · rintro ⟨low, high⟩
    exact Char.le_antisymm high low
  · rintro rfl
    exact ⟨Char.le_refl _, Char.le_refl _⟩

@[simp] theorem CharSet.has_except {c d : Char} : (CharSet.except c).has d = true ↔ d ≠ c := by
  rw [CharSet.except, CharSet.has, Bool.not_eq_true', Ne, ← CharSet.has_single, Bool.not_eq_true]

theorem Regex.concat_cons_matches {first : Regex} {others : List Regex} {start stop : Thread} :
    (Regex.concat (first :: others)).Matches start stop ↔
      ∃ middle, first.Matches start middle ∧ (Regex.concat others).Matches middle stop := by
  cases others with
  | nil =>
      constructor
      · intro matched
        exact ⟨stop, matched, rfl⟩
      · rintro ⟨middle, matched, rfl⟩
        exact matched
  | cons second others => rfl

theorem Regex.concat_append_matches {front back : List Regex} {start stop : Thread} :
    (Regex.concat (front ++ back)).Matches start stop ↔
      ∃ middle, (Regex.concat front).Matches start middle ∧
        (Regex.concat back).Matches middle stop := by
  induction front generalizing start with
  | nil =>
      constructor
      · intro matched
        exact ⟨start, rfl, matched⟩
      · rintro ⟨_, rfl, matched⟩
        exact matched
  | cons first front ih =>
      simp only [List.cons_append, concat_cons_matches, ih]
      constructor
      · rintro ⟨middle, one, later, others, last⟩
        exact ⟨later, ⟨middle, one, others⟩, last⟩
      · rintro ⟨later, ⟨middle, one, others⟩, last⟩
        exact ⟨middle, one, later, others, last⟩

theorem Regex.char_matches {c : Char} {start stop : Thread} :
    (Regex.char c).Matches start stop ↔
      ∃ rest, start.cursor.rest = c :: rest ∧ stop = start.step c rest := by
  constructor
  · rintro ⟨d, rest, here, member, eq⟩
    obtain rfl := CharSet.has_single.mp member
    exact ⟨rest, here, eq⟩
  · rintro ⟨rest, here, eq⟩
    exact ⟨c, rest, here, CharSet.has_single.mpr rfl, eq⟩

/-- A text as a pattern matches itself. -/
theorem Regex.literal_matches {text : Text} {start stop : Thread} :
    (Regex.literal text).Matches start stop ↔
      ∃ rest, start.cursor.rest = text ++ rest ∧
        stop = ⟨start.cursor.advance text rest, start.captures⟩ := by
  induction text generalizing start with
  | nil =>
      constructor
      · intro stays
        exact ⟨start.cursor.rest, rfl, stays.trans (by simp)⟩
      · rintro ⟨rest, rfl, eq⟩
        exact eq.trans (by simp)
  | cons c text ih =>
      rw [Regex.literal, List.map_cons, concat_cons_matches]
      simp only [char_matches]
      constructor
      · rintro ⟨_, ⟨behind, here, rfl⟩, later⟩
        obtain ⟨rest, whole, rfl⟩ := ih.mp later
        refine ⟨rest, ?_, ?_⟩
        · rw [here]
          exact congrArg (c :: ·) whole
        · simp only [Thread.step, Cursor.step_advance]
      · rintro ⟨rest, here, rfl⟩
        refine ⟨start.step c (text ++ rest), ⟨text ++ rest, here, rfl⟩, ih.mpr ⟨rest, rfl, ?_⟩⟩
        simp only [Thread.step, Cursor.step_advance]

/-! ### What exploration finds -/

/-- The thread comes from going on behind something that the relation leads to. -/
def FoundBehind (relation : Thread → Thread → Prop) (next : Continuation) (start found : Thread) :
    Prop :=
  ∃ middle visited, relation start middle ∧ next middle visited = .found found

section Found

variable {limit point : Nat} {visited : Visited} {found : Thread}

theorem orElse_found {outcome : Outcome} {other : Visited → Outcome}
    (success : outcome.orElse other = .found found) :
    outcome = .found found ∨ ∃ later, other later = .found found := by
  cases outcome with
  | found thread => exact Or.inl success
  | failed later => exact Or.inr ⟨later, success⟩

theorem enter_found {cursor : Cursor} {go : Visited → Outcome}
    (success : enter limit point cursor visited go = .found found) :
    ∃ later, go later = .found found := by
  unfold enter at success
  dsimp only at success
  split at success
  · cases success
  · exact ⟨_, success⟩

theorem choose_found {greedy : Bool} {again leave : Visited → Outcome}
    (success : choose greedy again leave visited = .found found) :
    (∃ later, again later = .found found) ∨ ∃ later, leave later = .found found := by
  unfold choose at success
  split at success
  · exact (orElse_found success).imp (fun now => ⟨_, now⟩) id
  · exact ((orElse_found success).imp (fun now => ⟨_, now⟩) id).symm

theorem tryEach_found {next : Continuation} {threads : List Thread}
    (success : tryEach next threads visited = .found found) :
    ∃ thread ∈ threads, ∃ later, next thread later = .found found := by
  induction threads generalizing visited with
  | nil => cases success
  | cons thread threads ih =>
      rw [tryEach] at success
      split at success
      · next result now =>
          cases success
          exact ⟨thread, List.mem_cons_self, visited, now⟩
      · obtain ⟨other, mem, later, now⟩ := ih success
        exact ⟨other, List.mem_cons_of_mem _ mem, later, now⟩

/-- The threads of a span have taken characters of its set. -/
theorem mem_spanThreads {chars : CharSet} {text : Text} {start thread : Thread}
    {shorter : List Thread} (here : start.cursor.rest = text)
    (mem : thread ∈ (spanThreads limit point chars text start shorter visited).1) :
    thread ∈ shorter ∨ (Regex.span true chars).Matches start thread := by
  have orHere : ∀ {start : Thread} {others : List Thread}, thread ∈ start :: others →
      thread ∈ others ∨ (Regex.span true chars).Matches start thread := by
    intro start others mem
    rcases List.mem_cons.mp mem with rfl | mem
    · exact Or.inr (Regex.span_matches_self true chars _)
    · exact Or.inl mem
  induction text generalizing start shorter visited with
  | nil =>
      unfold spanThreads at mem
      dsimp only at mem
      split at mem
      · exact Or.inl mem
      · exact orHere mem
  | cons c rest ih =>
      unfold spanThreads at mem
      dsimp only at mem
      split at mem
      · exact Or.inl mem
      · split at mem
        · next member =>
            rcases ih rfl mem with mem | later
            · exact orHere mem
            · exact Or.inr (Regex.span_matches_step here member later)
        · exact orHere mem

theorem spanLazily_found {chars : CharSet} {next : Continuation} {text : Text} {start : Thread}
    (here : start.cursor.rest = text)
    (success : spanLazily limit point chars next text start visited = .found found) :
    FoundBehind (Regex.span false chars).Matches next start found := by
  induction text generalizing start visited with
  | nil =>
      unfold spanLazily at success
      obtain ⟨later, success⟩ := enter_found success
      split at success
      · next result now =>
          cases success
          exact ⟨start, later, Regex.span_matches_self _ _ _, now⟩
      · cases success
  | cons c rest ih =>
      unfold spanLazily at success
      obtain ⟨later, success⟩ := enter_found success
      split at success
      · next result now =>
          cases success
          exact ⟨start, later, Regex.span_matches_self _ _ _, now⟩
      · dsimp only at success
        split at success
        · next member =>
            obtain ⟨middle, last, matched, now⟩ := ih rfl success
            exact ⟨middle, last, Regex.span_matches_step here member matched, now⟩
        · cases success

/-! Rounds of a body whose exploration finds nothing but what the body matches. -/

section Repetition

variable {relation : Thread → Thread → Prop} {next : Continuation}

/-- Whatever the round finds is found behind something that the relation leads to. -/
def Sound (relation : Thread → Thread → Prop) (round : Continuation → Continuation) : Prop :=
  ∀ {next start visited found}, round next start visited = .found found →
    FoundBehind relation next start found

theorem inTurn_found {round : Nat → Continuation → Continuation}
    (sound : ∀ index, Sound relation (round index)) {count index : Nat} {start : Thread}
    (success : inTurn round next count index start visited = .found found) :
    FoundBehind (Rounds relation count) next start found := by
  induction count generalizing index start visited with
  | zero => exact ⟨start, visited, rfl, success⟩
  | succ count ih =>
      obtain ⟨middle, later, one, success⟩ := sound index success
      obtain ⟨last, after, others, now⟩ := ih success
      exact ⟨last, after, ⟨middle, one, others⟩, now⟩

theorem upTo_found {own : Nat → Nat} {greedy : Bool} {round : Nat → Continuation → Continuation}
    (sound : ∀ index, Sound relation (round index)) {count index : Nat} {start : Thread}
    (success : upTo limit own greedy round next count index start visited = .found found) :
    ∃ made ≤ count, FoundBehind (Rounds relation made) next start found := by
  induction count generalizing index start visited with
  | zero => exact ⟨0, Nat.le_refl 0, start, visited, rfl, success⟩
  | succ count ih =>
      obtain ⟨later, success⟩ := enter_found success
      rcases choose_found success with ⟨after, again⟩ | ⟨after, leave⟩
      · obtain ⟨middle, before, one, again⟩ := sound index again
        obtain ⟨made, bound, last, behind, others, now⟩ := ih again
        exact ⟨made + 1, by omega, last, behind, ⟨middle, one, others⟩, now⟩
      · exact ⟨0, by omega, start, after, rfl, leave⟩

theorem loop_found {greedy : Bool} {round : Continuation → Continuation}
    (sound : Sound relation round) {fuel : Nat} {start : Thread}
    (success : loop limit point greedy round next fuel start visited = .found found) :
    ∃ made, FoundBehind (Rounds relation made) next start found := by
  induction fuel generalizing start visited with
  | zero => cases success
  | succ fuel ih =>
      obtain ⟨later, success⟩ := enter_found success
      rcases choose_found success with ⟨after, again⟩ | ⟨after, leave⟩
      · obtain ⟨middle, before, one, again⟩ := sound again
        obtain ⟨made, last, behind, others, now⟩ := ih again
        exact ⟨made + 1, last, behind, ⟨middle, one, others⟩, now⟩
      · exact ⟨0, start, after, rfl, leave⟩

end Repetition

/-- **Exploration finds only matches.** A thread that is found comes from going on behind a
match of the pattern; what was visited can only make the search give up earlier. -/
theorem explore_found (regex : Regex) (limit point : Nat) :
    Sound regex.Matches (regex.explore limit point) := by
  induction regex generalizing point with
  | empty =>
      intro next start visited found success
      exact ⟨start, visited, rfl, success⟩
  | set chars =>
      intro next start visited found success
      simp only [Regex.explore] at success
      split at success
      · cases success
      · next c rest here =>
          split at success
          · next member => exact ⟨_, visited, ⟨c, rest, here, member, rfl⟩, success⟩
          · cases success
  | span greedy chars =>
      intro next start visited found success
      cases greedy with
      | true =>
          obtain ⟨thread, mem, later, now⟩ := tryEach_found success
          rcases mem_spanThreads rfl mem with mem | matched
          · cases mem
          · exact ⟨thread, later, matched, now⟩
      | false => exact spanLazily_found rfl success
  | anchor place =>
      intro next start visited found success
      simp only [Regex.explore] at success
      split at success
      · next holds => exact ⟨start, visited, ⟨holds, rfl⟩, success⟩
      · cases success
  | seq first second one other =>
      intro next start visited found success
      obtain ⟨middle, later, front, success⟩ := one _ success
      obtain ⟨last, after, back, now⟩ := other _ success
      exact ⟨last, after, ⟨middle, front, back⟩, now⟩
  | alt first second one other =>
      intro next start visited found success
      obtain ⟨later, success⟩ := enter_found success
      rcases orElse_found success with success | ⟨after, success⟩
      · obtain ⟨last, behind, matched, now⟩ := one _ success
        exact ⟨last, behind, Or.inl matched, now⟩
      · obtain ⟨last, behind, matched, now⟩ := other _ success
        exact ⟨last, behind, Or.inr matched, now⟩
  | times greedy least most body ih =>
      intro next start visited found success
      simp only [Regex.explore] at success
      obtain ⟨middle, later, first, success⟩ := inTurn_found (fun index => ih _) success
      cases most with
      | some most =>
          obtain ⟨made, bound, last, after, others, now⟩ := upTo_found (fun index => ih _) success
          refine ⟨last, after, ⟨least + made, by omega, ?_, first.append others⟩, now⟩
          rintro _ ⟨⟩
          omega
      | none =>
          obtain ⟨made, last, after, others, now⟩ := loop_found (ih _) success
          exact ⟨last, after, ⟨least + made, by omega, by simp, first.append others⟩, now⟩
  | group index body ih =>
      intro next start visited found success
      obtain ⟨inner, later, matched, now⟩ := ih _ success
      exact ⟨_, later, ⟨inner, matched, rfl⟩, now⟩

/-- A successful attempt at a place is a match there. -/
theorem attempt_found {regex : Regex} {cursor : Cursor}
    (success : regex.attempt limit cursor visited = .found found) :
    regex.Matches ⟨cursor, []⟩ found := by
  obtain ⟨middle, later, matched, now⟩ := explore_found regex limit 0 success
  cases now
  exact matched

end Found

/-! ### Replacement -/

/-- The result keeps characters of the text, and in the place of others, which the pattern
matches, it has the value of the match. -/
inductive Rewrites (regex : Regex) (value : Match → Text) : Text → Text → Prop where
  | done : Rewrites regex value [] []
  | kept {c : Char} {rest result : Text} (later : Rewrites regex value rest result) :
      Rewrites regex value (c :: rest) (c :: result)
  | replaced {cursor : Cursor} {taken rest result : Text} {captures : List Capture}
      (here : cursor.rest = taken ++ rest)
      (matched : regex.Matches ⟨cursor, []⟩ ⟨cursor.advance taken rest, captures⟩)
      (later : Rewrites regex value rest result) :
      Rewrites regex value (taken ++ rest) (value ⟨taken, captures⟩ ++ result)

/-- What a piece of a text becomes. -/
def Piece.replaced (value : Match → Text) : Piece → Text
  | .kept c => [c]
  | .matched found => value found

theorem Regex.replaceAll_eq (regex : Regex) (value : Match → Text) (text : Text) :
    regex.replaceAll value text = (regex.pieces text).flatMap (Piece.replaced value) := by
  rw [Regex.replaceAll]
  congr 1

/-- A match that was found, with the text that it takes off the front. -/
theorem exists_taken_of_attempt {regex : Regex} {limit : Nat} {cursor : Cursor} {visited : Visited}
    {found : Thread} (success : regex.attempt limit cursor visited = .found found) :
    ∃ taken rest, cursor.rest = taken ++ rest ∧ cursor.textTo found.cursor = taken ∧
      regex.Matches ⟨cursor, []⟩ ⟨cursor.advance taken rest, found.captures⟩ := by
  have matched := attempt_found success
  obtain ⟨taken, whole, stop⟩ := matched.reaches
  refine ⟨taken, found.cursor.rest, whole, ?_, ?_⟩
  · rw [stop]
    exact Cursor.Reaches.textTo_eq cursor whole
  · rw [← stop]
    exact matched

theorem piecesFrom_rewrites (regex : Regex) (value : Match → Text) (limit : Nat) (text : Text)
    (skip : Nat) (closed : Bool) (visited : Visited) (cursor : Cursor)
    (here : cursor.rest = text) :
    Rewrites regex value (text.drop skip)
      ((regex.piecesFrom limit skip closed visited cursor text).flatMap
        (Piece.replaced value)) := by
  induction text generalizing skip closed visited cursor with
  | nil =>
      cases skip with
      | succ skip => exact .done
      | zero =>
          unfold Regex.piecesFrom
          split
          · next thread success =>
              cases closed with
              | true => exact .done
              | false =>
                  obtain ⟨taken, rest, whole, -, matched⟩ := exists_taken_of_attempt success
                  obtain ⟨rfl, rfl⟩ := List.append_eq_nil_iff.mp (whole.symm.trans here)
                  exact .replaced whole matched .done
          · exact .done
  | cons c rest ih =>
      cases skip with
      | succ skip => exact ih skip true visited (cursor.step c rest) rfl
      | zero =>
          unfold Regex.piecesFrom
          split
          · exact .kept (ih 0 false _ _ rfl)
          · next thread success =>
              obtain ⟨taken, behind, whole, eq, matched⟩ := exists_taken_of_attempt success
              simp only [eq]
              split
              · next length eqLength =>
                  -- The rest of the match is skipped, character by character.
                  have left : rest.drop length = behind := by
                    have cut := congrArg (List.drop (length + 1)) (here.symm.trans whole)
                    rwa [List.drop_succ_cons, List.drop_left' eqLength] at cut
                  have later := ih length true ∅ (cursor.step c rest) rfl
                  rw [left] at later
                  have all := Rewrites.replaced whole matched later
                  rwa [← whole, here] at all
              · next eqLength =>
                  obtain rfl := List.length_eq_zero_iff.mp eqLength
                  obtain rfl : c :: rest = behind := here.symm.trans whole
                  have later := Rewrites.kept (c := c) (ih 0 false ∅ (cursor.step c rest) rfl)
                  cases closed with
                  | true => exact later
                  | false => exact .replaced whole matched later

/-- **Replacement keeps characters and replaces matches**, and does nothing else. -/
theorem replaceAll_rewrites (regex : Regex) (value : Match → Text) (text : Text) :
    Rewrites regex value text (regex.replaceAll value text) := by
  rw [Regex.replaceAll_eq]
  exact piecesFrom_rewrites regex value text.length text 0 false ∅ ⟨0, none, text⟩ rfl

end CrossShade.Pattern
