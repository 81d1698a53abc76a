import CrossShade.Proofs.Ways

/-!
What has been visited leads nowhere. The search for a match enters no choice point twice at one
place, and this never changes what it finds: a choice point that was entered before and is done
with had no way to succeed, and one that is still being tried is not met again, because fewer
choices lie behind it each time.

* `Charted`: a chart gives for every choice point of a pattern and every place of the text the
  ways that lie ahead there. They do not depend on how the point was reached, so there is such a
  chart (`exists_charted`).
* `explore_follows`: exploration comes to the first way, as long as what was visited before
  leads nowhere according to the chart; and what it visits in vain leads nowhere either.
* `pieces_eq`: a text is cut at the first matches, with no regard to the memory of the search.
-/

namespace CrossShade.Pattern

/-! ### Places of a text -/

/-- The place stands in the text. -/
def Cursor.On (text : Text) (cursor : Cursor) : Prop :=
  Cursor.Reaches ⟨0, none, text⟩ cursor

/-- The place behind the first `offset` characters. -/
def placeAt (text : Text) (offset : Nat) : Cursor :=
  ⟨offset, (text.take offset).getLast?, text.drop offset⟩

section Places

variable {text : Text} {cursor : Cursor}

theorem Cursor.On.eq_placeAt (on : cursor.On text) : cursor = placeAt text cursor.offset := by
  obtain ⟨taken, whole, eq⟩ := on
  simp only at whole
  rw [eq, Cursor.advance, placeAt, whole]
  simp

theorem Cursor.On.offset_add (on : cursor.On text) :
    cursor.offset + cursor.rest.length = text.length := by
  obtain ⟨taken, whole, eq⟩ := on
  simp only at whole
  rw [eq, Cursor.advance, whole]
  simp

theorem Cursor.On.offset_le (on : cursor.On text) : cursor.offset ≤ text.length := by
  have sum := on.offset_add
  omega

theorem Regex.Matches.on {regex : Regex} {start stop : Thread} (matched : regex.Matches start stop)
    (on : start.cursor.On text) : stop.cursor.On text :=
  Cursor.Reaches.trans on matched.reaches

end Places

/-- The number of a choice point at a place tells both. -/
theorem visitKey_inj {limit point offset point' offset' : Nat} (inside : offset ≤ limit)
    (inside' : offset' ≤ limit)
    (same : visitKey limit point offset = visitKey limit point' offset') :
    point = point' ∧ offset = offset' := by
  unfold visitKey at same
  have quotient : ∀ p o, o ≤ limit → (p * (limit + 1) + o) / (limit + 1) = p := by
    intro p o small
    rw [Nat.mul_comm, Nat.mul_add_div (by omega), Nat.div_eq_of_lt (by omega), Nat.add_zero]
  have points : point = point' := by
    rw [← quotient point offset inside, same, quotient point' offset' inside']
  subst points
  exact ⟨rfl, by omega⟩

/-! ### Charts -/

/-- For every choice point and every place, the ways that lie ahead. -/
abbrev Chart := Nat → Nat → Ways

section Charts

variable (text : Text) (chart : Chart)

/-- The chart is right about a choice point. -/
def Known (point : Nat) (value : Thread → Ways) : Prop :=
  ∀ thread : Thread, thread.cursor.On text →
    (value thread).Alike (chart point thread.cursor.offset)

/-- The chart is right about all choice points of a pattern, which are numbered from `point` on;
`next` is what follows the pattern. -/
def Regex.Charted : Regex → Nat → (Thread → Ways) → Prop
  | .empty, _, _ => True
  | .set _, _, _ => True
  | .span greedy chars, point, next => Known text chart point ((Regex.span greedy chars).ways next)
  | .anchor _, _, _ => True
  | .seq first second, point, next =>
      first.Charted point (second.ways next) ∧ second.Charted (point + first.pointCount) next
  | .alt first second, point, next =>
      Known text chart point ((Regex.alt first second).ways next) ∧
        first.Charted (point + 1) next ∧ second.Charted (point + 1 + first.pointCount) next
  | .times greedy least most body, point, next =>
      ∀ index < roundCount least most,
        Known text chart (point + index * (body.pointCount + 1))
            (restWays greedy least most body.ways next (max least index)) ∧
          body.Charted (point + index * (body.pointCount + 1) + 1)
            (restWays greedy least most body.ways next (index + 1))
  | .group _ body, point, next => body.Charted point next

variable {text chart}

theorem Known.of_sameWays {point : Nat} {X Y : Thread → Ways} (known : Known text chart point X)
    (same : SameWays Y X) : Known text chart point Y := fun thread on =>
  (same thread thread rfl).trans (known thread on)

/-- The chart is right whatever threads the ways end with. -/
theorem Regex.Charted.of_sameWays {regex : Regex} {point : Nat} {X Y : Thread → Ways}
    (charted : regex.Charted text chart point X) (same : SameWays Y X) :
    regex.Charted text chart point Y := by
  induction regex generalizing point X Y with
  | empty => trivial
  | set chars => trivial
  | span greedy chars => exact Known.of_sameWays charted (same.ways _)
  | anchor place => trivial
  | seq first second ihFirst ihSecond =>
      exact ⟨ihFirst charted.1 (same.ways second), ihSecond charted.2 same⟩
  | alt first second ihFirst ihSecond =>
      exact ⟨charted.1.of_sameWays (same.ways _), ihFirst charted.2.1 same,
        ihSecond charted.2.2 same⟩
  | times greedy least most body ih =>
      intro index bound
      obtain ⟨known, inner⟩ := charted index bound
      exact ⟨known.of_sameWays (same.restWays _ _ _ _ _), ih inner (same.restWays _ _ _ _ _)⟩
  | group index body ih => exact ih charted same

theorem Known.congr {other : Chart} {point : Nat} {value : Thread → Ways}
    (known : Known text chart point value) (same : other point = chart point) :
    Known text other point value := fun thread on => by
  rw [same]
  exact known thread on

theorem round_end_le (stride : Nat) {index count : Nat} (bound : index < count) :
    index * stride + stride ≤ count * stride := by
  rw [← Nat.succ_mul]
  exact Nat.mul_le_mul_right stride bound

/-- Only the entries for a pattern's own choice points matter. -/
theorem Regex.Charted.congr {regex : Regex} {other : Chart} {point : Nat} {value : Thread → Ways}
    (charted : regex.Charted text chart point value)
    (same : ∀ sought, point ≤ sought → sought < point + regex.pointCount →
      other sought = chart sought) : regex.Charted text other point value := by
  induction regex generalizing point value with
  | empty => trivial
  | set chars => trivial
  | span greedy chars =>
      exact Known.congr charted (same point (Nat.le_refl _) (Nat.lt_succ_self _))
  | anchor place => trivial
  | seq first second ihFirst ihSecond =>
      simp only [Regex.pointCount] at same
      exact ⟨ihFirst charted.1 fun sought low high => same sought (by omega) (by omega),
        ihSecond charted.2 fun sought low high => same sought (by omega) (by omega)⟩
  | alt first second ihFirst ihSecond =>
      simp only [Regex.pointCount] at same
      exact ⟨charted.1.congr (same point (by omega) (by omega)),
        ihFirst charted.2.1 fun sought low high => same sought (by omega) (by omega),
        ihSecond charted.2.2 fun sought low high => same sought (by omega) (by omega)⟩
  | times greedy least most body ih =>
      intro index bound
      simp only [Regex.pointCount] at same
      have fits := round_end_le (body.pointCount + 1) bound
      obtain ⟨known, inner⟩ := charted index bound
      exact ⟨known.congr (same _ (by omega) (by omega)),
        ih inner fun sought low high => same sought (by omega) (by omega)⟩
  | group index body ih => exact ih charted same

/-- A chart that is right about one more choice point. -/
theorem exists_known (text : Text) (chart : Chart) (point : Nat) {value : Thread → Ways}
    (determined : SameWays value value) :
    ∃ other : Chart, (∀ sought, sought ≠ point → other sought = chart sought) ∧
      Known text other point value := by
  refine ⟨fun sought offset =>
    if sought = point then value ⟨placeAt text offset, []⟩ else chart sought offset, ?_, ?_⟩
  · intro sought differs
    simp [differs]
  · intro thread on
    simp only [if_true]
    exact determined _ _ on.eq_placeAt

/-- **There is a chart** that is right about all choice points of a pattern. -/
theorem exists_charted (text : Text) (regex : Regex) (chart : Chart) (point : Nat)
    {value : Thread → Ways} (determined : SameWays value value) :
    ∃ other : Chart, (∀ sought, sought < point ∨ point + regex.pointCount ≤ sought →
      other sought = chart sought) ∧ regex.Charted text other point value := by
  induction regex generalizing chart point value with
  | empty => exact ⟨chart, fun _ _ => rfl, trivial⟩
  | set chars => exact ⟨chart, fun _ _ => rfl, trivial⟩
  | span greedy chars =>
      obtain ⟨other, outside, known⟩ := exists_known text chart point
        (determined.ways (.span greedy chars))
      refine ⟨other, fun sought apart => outside sought ?_, known⟩
      simp only [Regex.pointCount] at apart
      omega
  | anchor place => exact ⟨chart, fun _ _ => rfl, trivial⟩
  | seq first second ihFirst ihSecond =>
      obtain ⟨middle, outsideFirst, chartedFirst⟩ := ihFirst chart point (determined.ways second)
      obtain ⟨other, outsideSecond, chartedSecond⟩ :=
        ihSecond middle (point + first.pointCount) determined
      refine ⟨other, fun sought apart => ?_, chartedFirst.congr fun sought low high => ?_,
        chartedSecond⟩
      · simp only [Regex.pointCount] at apart
        rw [outsideSecond sought (by omega), outsideFirst sought (by omega)]
      · exact outsideSecond sought (Or.inl high)
  | alt first second ihFirst ihSecond =>
      obtain ⟨start, outside, known⟩ := exists_known text chart point
        (determined.ways (.alt first second))
      obtain ⟨middle, outsideFirst, chartedFirst⟩ := ihFirst start (point + 1) determined
      obtain ⟨other, outsideSecond, chartedSecond⟩ :=
        ihSecond middle (point + 1 + first.pointCount) determined
      refine ⟨other, fun sought apart => ?_, known.congr ?_,
        chartedFirst.congr fun sought low high => ?_, chartedSecond⟩
      · simp only [Regex.pointCount] at apart
        rw [outsideSecond sought (by omega), outsideFirst sought (by omega),
          outside sought (by omega)]
      · rw [outsideSecond point (by omega), outsideFirst point (by omega)]
      · exact outsideSecond sought (Or.inl high)
  | times greedy least most body ih =>
      -- The rounds are charted one after another; `count` of them are done.
      have run : ∀ count, ∃ other : Chart,
          (∀ sought, sought < point ∨ point + count * (body.pointCount + 1) ≤ sought →
            other sought = chart sought) ∧
          ∀ index < count,
            Known text other (point + index * (body.pointCount + 1))
                (restWays greedy least most body.ways value (max least index)) ∧
              body.Charted text other (point + index * (body.pointCount + 1) + 1)
                (restWays greedy least most body.ways value (index + 1)) := by
        intro count
        induction count with
        | zero => exact ⟨chart, fun _ _ => rfl, by simp⟩
        | succ count done =>
            obtain ⟨before, outsideBefore, charted⟩ := done
            obtain ⟨middle, outsideMiddle, known⟩ := exists_known text before
              (point + count * (body.pointCount + 1))
              (determined.restWays greedy least most body (max least count))
            obtain ⟨other, outside, inner⟩ := ih middle
              (point + count * (body.pointCount + 1) + 1)
              (determined.restWays greedy least most body (count + 1))
            refine ⟨other, fun sought apart => ?_, fun index bound => ?_⟩
            · rw [Nat.succ_mul] at apart
              rw [outside sought (by omega), outsideMiddle sought (by omega),
                outsideBefore sought (by omega)]
            · rcases Nat.lt_succ_iff_lt_or_eq.mp bound with earlier | rfl
              · have fits := round_end_le (body.pointCount + 1) earlier
                have kept : ∀ sought, sought < point + count * (body.pointCount + 1) →
                    other sought = before sought := by
                  intro sought low
                  rw [outside sought (by omega), outsideMiddle sought (by omega)]
                obtain ⟨knownEarlier, innerEarlier⟩ := charted index earlier
                exact ⟨knownEarlier.congr (kept _ (by omega)),
                  innerEarlier.congr fun sought low high => kept sought (by omega)⟩
              · exact ⟨known.congr (outside _ (by omega)), inner⟩
      exact run (roundCount least most)
  | group index body ih => exact ih chart point determined

end Charts

/-! ### What was visited -/

theorem mem_or_eq_of_mem_insert {visited : Visited} {key other : Nat}
    (mem : other ∈ visited.insert key) : other ∈ visited ∨ other = key := by
  rw [Std.TreeSet.mem_insert] at mem
  exact mem.symm.imp_right fun eq => (by simpa using eq : key = other).symm

section Agreement

variable (text : Text) (chart : Chart)

/-- Whatever has been visited with no more than `bound` choices ahead leads nowhere. -/
def Safe (bound : Nat) (visited : Visited) : Prop :=
  ∀ point offset, offset ≤ text.length → visitKey text.length point offset ∈ visited →
    (chart point offset).size ≤ bound → (chart point offset).first = none

/-- The outcome is the first of the ways. What it adds to the visited points, if there is none,
leads nowhere. -/
def Explains (visited : Visited) (ways : Ways) : Outcome → Prop
  | .found thread => ways.first = some thread
  | .failed later => ways.first = none ∧
      ∀ point offset, offset ≤ text.length → visitKey text.length point offset ∈ later →
        visitKey text.length point offset ∈ visited ∨ (chart point offset).first = none

/-- Going on from the thread comes to the first of the ways expected there. -/
def Follows (next : Continuation) (value : Thread → Ways) (thread : Thread) : Prop :=
  ∀ visited, Safe text chart (value thread).size visited →
    Explains text chart visited (value thread) (next thread visited)

variable {text chart} {visited : Visited} {front back ways : Ways} {cursor : Cursor} {point : Nat}

theorem Explains.safe {bound : Nat} {later : Visited}
    (explains : Explains text chart visited ways (.failed later))
    (safe : Safe text chart bound visited) : Safe text chart bound later := by
  intro point offset inside seen small
  rcases explains.2 point offset inside seen with seen | dead
  · exact safe point offset inside seen small
  · exact dead

theorem explains_failed (visited : Visited) : Explains text chart visited .none (.failed visited) :=
  ⟨rfl, fun _ _ _ seen => Or.inl seen⟩

/-- One branch of a choice, and then the other. -/
theorem Explains.orElse {outcome : Outcome} {other : Visited → Outcome}
    (one : Explains text chart visited front outcome)
    (safe : Safe text chart back.size visited)
    (another : ∀ later, Safe text chart back.size later →
      Explains text chart later back (other later)) :
    Explains text chart visited (.either front back) (outcome.orElse other) := by
  cases outcome with
  | found thread =>
      have found : front.first = some thread := one
      simp [Outcome.orElse, Explains, Ways.first, found]
  | failed later =>
      have second := another later (one.safe safe)
      have nothing : front.first = none := one.1
      simp only [Outcome.orElse]
      cases outcome : other later with
      | found thread =>
          rw [outcome] at second
          have found : back.first = some thread := second
          simp [Explains, Ways.first, nothing, found]
      | failed last =>
          rw [outcome] at second
          refine ⟨by simp [Ways.first, nothing, second.1], fun point offset inside seen => ?_⟩
          rcases second.2 point offset inside seen with seen | dead
          · exact one.2 point offset inside seen
          · exact Or.inr dead

/-- A choice point that was entered before leads nowhere; else it is tried, and while it is being
tried all that lies behind it has fewer choices ahead. -/
theorem Explains.enter {go : Visited → Outcome} (on : cursor.On text)
    (known : ways.Alike (chart point cursor.offset)) (safe : Safe text chart ways.size visited)
    (goes : ∀ later, (∀ lower < ways.size, Safe text chart lower later) →
      Explains text chart later ways (go later)) :
    Explains text chart visited ways (Pattern.enter text.length point cursor visited go) := by
  unfold Pattern.enter
  dsimp only
  split
  · next seen =>
      have mem : visitKey text.length point cursor.offset ∈ visited := by simpa using seen
      have dead := safe point cursor.offset on.offset_le mem (Nat.le_of_eq known.size_eq.symm)
      exact ⟨known.first_eq_none_iff.mpr dead, fun _ _ _ seen => Or.inl seen⟩
  · have entered : ∀ p o, o ≤ text.length →
        visitKey text.length p o ∈ visited.insert (visitKey text.length point cursor.offset) →
        visitKey text.length p o ∈ visited ∨ p = point ∧ o = cursor.offset := by
      intro p o inside seen
      exact (mem_or_eq_of_mem_insert seen).imp_right fun same =>
        visitKey_inj inside on.offset_le same
    have went := goes (visited.insert (visitKey text.length point cursor.offset)) (by
      intro lower less p o inside seen small
      rcases entered p o inside seen with seen | ⟨rfl, rfl⟩
      · exact safe p o inside seen (by omega)
      · have size_eq := known.size_eq
        omega)
    cases outcome : go (visited.insert (visitKey text.length point cursor.offset)) with
    | found thread =>
        rw [outcome] at went
        exact went
    | failed later =>
        rw [outcome] at went
        refine ⟨went.1, fun p o inside seen => ?_⟩
        rcases went.2 p o inside seen with seen | dead
        · rcases entered p o inside seen with seen | ⟨rfl, rfl⟩
          · exact Or.inl seen
          · exact Or.inr (known.first_eq_none_iff.mp went.1)
        · exact Or.inr dead

/-- A choice between one more round and leaving. -/
theorem Explains.choose {greedy : Bool} {again leave : Ways} {goOn goOut : Visited → Outcome}
    (on : cursor.On text)
    (known : (Ways.order greedy again leave).Alike (chart point cursor.offset))
    (safe : Safe text chart (Ways.order greedy again leave).size visited)
    (goesOn : ∀ later, Safe text chart again.size later →
      Explains text chart later again (goOn later))
    (goesOut : ∀ later, Safe text chart leave.size later →
      Explains text chart later leave (goOut later)) :
    Explains text chart visited (Ways.order greedy again leave)
      (Pattern.enter text.length point cursor visited (Pattern.choose greedy goOn goOut)) := by
  refine Explains.enter on known safe fun later low => ?_
  cases greedy with
  | true =>
      have lowAgain := low again.size (by simp only [Ways.order, if_true, Ways.size]; omega)
      have lowLeave := low leave.size (by simp only [Ways.order, if_true, Ways.size]; omega)
      exact (goesOn later lowAgain).orElse lowLeave goesOut
  | false =>
      have lowAgain := low again.size (by
        simp only [Ways.order, Bool.false_eq_true, if_false, Ways.size]
        omega)
      have lowLeave := low leave.size (by
        simp only [Ways.order, Bool.false_eq_true, if_false, Ways.size]
        omega)
      exact (goesOut later lowLeave).orElse lowAgain goesOn

end Agreement

/-! ### Spans -/

/-- A span as a choice at each of its characters. -/
def spanChoices (limit point : Nat) (greedy : Bool) (chars : CharSet) (next : Continuation) :
    Text → Continuation
  | [], thread, visited =>
      enter limit point thread.cursor visited (choose greedy .failed (next thread))
  | c :: rest, thread, visited =>
      enter limit point thread.cursor visited
        (choose greedy
          (fun visited =>
            if chars.has c then
              spanChoices limit point greedy chars next rest (thread.step c rest) visited
            else .failed visited)
          (next thread))

theorem Outcome.orElse_assoc (outcome : Outcome) (one other : Visited → Outcome) :
    (outcome.orElse one).orElse other = outcome.orElse fun visited => (one visited).orElse other := by
  cases outcome <;> rfl

theorem tryEach_cons (next : Continuation) (thread : Thread) (threads : List Thread)
    (visited : Visited) :
    tryEach next (thread :: threads) visited =
      (next thread visited).orElse (tryEach next threads) := by
  rw [tryEach]
  cases next thread visited <;> rfl

theorem tryEach_spanThreads (limit point : Nat) (chars : CharSet) (next : Continuation)
    (text : Text) (thread : Thread) (shorter : List Thread) (visited : Visited) :
    tryEach next (spanThreads limit point chars text thread shorter visited).1
        (spanThreads limit point chars text thread shorter visited).2 =
      (spanChoices limit point true chars next text thread visited).orElse
        (tryEach next shorter) := by
  induction text generalizing thread shorter visited with
  | nil =>
      unfold spanThreads spanChoices enter choose
      dsimp only
      split
      · rfl
      · exact tryEach_cons next thread shorter _
  | cons c rest ih =>
      unfold spanThreads spanChoices enter choose
      dsimp only
      split
      · rfl
      · split
        · rw [ih, if_pos rfl, Outcome.orElse_assoc]
          exact congrArg (Outcome.orElse _) (funext (tryEach_cons next thread shorter))
        · exact tryEach_cons next thread shorter _

theorem spanLazily_eq (limit point : Nat) (chars : CharSet) (next : Continuation) (text : Text)
    (thread : Thread) (visited : Visited) :
    spanLazily limit point chars next text thread visited =
      spanChoices limit point false chars next text thread visited := by
  induction text generalizing thread visited with
  | nil =>
      unfold spanLazily spanChoices choose
      refine congrArg (enter limit point thread.cursor visited) (funext fun later => ?_)
      cases next thread later <;> rfl
  | cons c rest ih =>
      unfold spanLazily spanChoices choose
      refine congrArg (enter limit point thread.cursor visited) (funext fun later => ?_)
      simp only [ih]
      cases next thread later <;> rfl

theorem explore_span (limit point : Nat) (greedy : Bool) (chars : CharSet) (next : Continuation)
    (thread : Thread) (visited : Visited) :
    (Regex.span greedy chars).explore limit point next thread visited =
      spanChoices limit point greedy chars next thread.cursor.rest thread visited := by
  cases greedy with
  | true =>
      have run := tryEach_spanThreads limit point chars next thread.cursor.rest thread [] visited
      refine run.trans ?_
      cases spanChoices limit point true chars next thread.cursor.rest thread visited <;> rfl
  | false => exact spanLazily_eq limit point chars next thread.cursor.rest thread visited

/-! ### Exploration -/

/-- Whether every repetition without bound has a body that takes a character. -/
def Regex.isSteady : Regex → Bool
  | .seq first second => first.isSteady && second.isSteady
  | .alt first second => first.isSteady && second.isSteady
  | .times _ least most body =>
      body.isSteady &&
        match most with
        | some most => decide (least ≤ most)
        | none => !body.isNullable
  | .group _ body => body.isSteady
  | _ => true

section Exploration

variable {text : Text} {chart : Chart} {next : Continuation} {value : Thread → Ways}
  {thread : Thread}

theorem spanChoices_follows {greedy : Bool} {chars : CharSet} {point : Nat} (behind : Text)
    (here : thread.cursor.rest = behind) (on : thread.cursor.On text)
    (known : Known text chart point ((Regex.span greedy chars).ways value))
    (follows : ∀ later, (Regex.span greedy chars).Matches thread later →
      Follows text chart next value later) (visited : Visited)
    (safe : Safe text chart (spanWays greedy chars value behind thread).size visited) :
    Explains text chart visited (spanWays greedy chars value behind thread)
      (spanChoices text.length point greedy chars next behind thread visited) := by
  have knownHere := known thread on
  simp only [Regex.ways, here] at knownHere
  have leaves := follows thread (Regex.span_matches_self _ _ _)
  induction behind generalizing thread visited with
  | nil => exact Explains.choose on knownHere safe (fun later _ => explains_failed later) leaves
  | cons c rest ih =>
      refine Explains.choose on knownHere safe (fun later low => ?_) leaves
      split
      · next member =>
          simp only [member, if_true] at low
          have step : (Regex.span greedy chars).Matches thread (thread.step c rest) :=
            Regex.span_matches_step here member (Regex.span_matches_self _ _ _)
          have onward := step.on on
          refine ih rfl onward (fun last matched => ?_) later low (known _ onward) (follows _ step)
          exact follows last (Regex.span_matches_step here member matched)
      · exact explains_failed later

/-! Repetitions of a body whose exploration follows its ways. -/

section Repetition

variable {greedy : Bool} {least : Nat} {most : Option Nat} {body : Regex} {point : Nat}

/-- Exploration of the body follows its ways. -/
def BodyFollows (text : Text) (chart : Chart) (body : Regex) : Prop :=
  ∀ {point next value thread}, SameWays value value → thread.cursor.On text →
    body.Charted text chart point value →
    (∀ later, body.Matches thread later → Follows text chart next value later) →
    Follows text chart (body.explore text.length point next) (body.ways value) thread

variable {start : Thread} (bodyFollows : BodyFollows text chart body)
  (determined : SameWays value value)

include bodyFollows determined

theorem upTo_follows {bound : Nat}
    (charted : (Regex.times greedy least (some bound) body).Charted text chart point value)
    {count index : Nat} (sum : index + count = bound) (enough : least ≤ index)
    (on : thread.cursor.On text) (reached : Rounds body.Matches index start thread)
    (follows : ∀ later made, index ≤ made → made ≤ bound → Rounds body.Matches made start later →
      Follows text chart next value later) :
    Follows text chart
      (upTo text.length (fun index => point + index * (body.pointCount + 1)) greedy
        (fun index => body.explore text.length (point + index * (body.pointCount + 1) + 1)) next
        count index)
      (restWays greedy least (some bound) body.ways value index) thread := by
  induction count generalizing index thread with
  | zero =>
      obtain rfl : index = bound := sum
      rw [restWays_some enough, Nat.sub_self]
      exact follows thread index (Nat.le_refl _) (Nat.le_refl _) reached
  | succ count ih =>
      intro visited safe
      obtain ⟨known, inner⟩ := charted index (show index < bound by omega)
      rw [Nat.max_eq_right enough] at known
      have knownHere := known thread on
      have unfolded : restWays greedy least (some bound) body.ways value index =
          fun thread => .order greedy
            (body.ways (restWays greedy least (some bound) body.ways value (index + 1)) thread)
            (value thread) := by
        have left : bound - index = bound - (index + 1) + 1 := by omega
        rw [restWays_some enough, restWays_some (Nat.le_succ_of_le enough), left]
        rfl
      rw [unfolded] at safe knownHere ⊢
      refine Explains.choose on knownHere safe ?_
        (follows thread index (Nat.le_refl _) (by omega) reached)
      refine bodyFollows (determined.restWays _ _ _ _ _) on inner fun later one => ?_
      refine ih (by omega) (by omega) (one.on on) (reached.append ⟨later, one, rfl⟩) ?_
      exact fun last made low => follows last made (by omega)

theorem loop_follows (takes : body.isNullable = false)
    (known : Known text chart point (loopWays greedy body.ways value))
    (charted : body.Charted text chart (point + 1) (loopWays greedy body.ways value))
    {fuel : Nat} (enough : thread.cursor.rest.length < fuel) (on : thread.cursor.On text)
    (follows : ∀ later made, Rounds body.Matches made thread later →
      Follows text chart next value later) :
    Follows text chart
      (loop text.length point greedy (body.explore text.length (point + 1)) next fuel)
      (loopWays greedy body.ways value) thread := by
  induction fuel generalizing thread with
  | zero => exact absurd enough (Nat.not_lt_zero _)
  | succ fuel ih =>
      intro visited safe
      have knownHere := known thread on
      rw [loopWays_eq takes] at safe knownHere ⊢
      refine Explains.choose on knownHere safe ?_ (follows thread 0 rfl)
      refine bodyFollows (determined.loopWays _ _) on charted fun later one => ?_
      have shorter := one.length_lt takes
      exact ih (by omega) (one.on on) fun last made others =>
        follows last (made + 1) ⟨later, one, others⟩

theorem inTurn_follows {more : Continuation}
    (charted : ∀ index < least,
      body.Charted text chart (point + index * (body.pointCount + 1) + 1)
        (restWays greedy least most body.ways value (index + 1)))
    {count index : Nat} (sum : index + count = least) (on : thread.cursor.On text)
    (reached : Rounds body.Matches index start thread)
    (follows : ∀ later, later.cursor.On text → Rounds body.Matches least start later →
      Follows text chart more (restWays greedy least most body.ways value least) later) :
    Follows text chart
      (inTurn (fun index => body.explore text.length (point + index * (body.pointCount + 1) + 1))
        more count index)
      (restWays greedy least most body.ways value index) thread := by
  induction count generalizing index thread with
  | zero =>
      obtain rfl : index = least := sum
      exact follows thread on reached
  | succ count ih =>
      rw [restWays_of_lt body.ways (show index < least by omega)]
      refine bodyFollows (determined.restWays _ _ _ _ _) on (charted index (by omega))
        fun later one => ?_
      exact ih (by omega) (one.on on) (reached.append ⟨later, one, rfl⟩)

end Repetition

/-- **Exploration comes to the first way.** A search with a memory finds what the search without
one would, if nothing that was visited before has a way to succeed. -/
theorem explore_follows (regex : Regex) (steady : regex.isSteady = true) :
    BodyFollows text chart regex := by
  induction regex with
  | empty => exact fun _ _ _ follows => follows _ rfl
  | set chars =>
      intro point next value thread _ _ _ follows visited safe
      simp only [Regex.ways, Regex.explore] at safe ⊢
      cases here : thread.cursor.rest with
      | nil => exact explains_failed visited
      | cons c rest =>
          simp only [here] at safe
          dsimp only
          split
          · next member =>
              simp only [member, if_true] at safe
              exact follows _ ⟨c, rest, here, member, rfl⟩ visited safe
          · exact explains_failed visited
  | span greedy chars =>
      intro point next value thread _ on charted follows visited safe
      rw [explore_span]
      exact spanChoices_follows _ rfl on charted follows visited safe
  | anchor place =>
      intro point next value thread _ _ _ follows visited safe
      simp only [Regex.ways, Regex.explore] at safe ⊢
      split
      · next holds =>
          simp only [holds, if_true] at safe
          exact follows _ ⟨holds, rfl⟩ visited safe
      · exact explains_failed visited
  | seq first second ihFirst ihSecond =>
      obtain ⟨steadyFirst, steadySecond⟩ := Bool.and_eq_true_iff.mp steady
      intro point next value thread determined on charted follows
      refine ihFirst steadyFirst (determined.ways second) on charted.1 fun middle one => ?_
      refine ihSecond steadySecond determined (one.on on) charted.2 fun later other => ?_
      exact follows later ⟨middle, one, other⟩
  | alt first second ihFirst ihSecond =>
      obtain ⟨steadyFirst, steadySecond⟩ := Bool.and_eq_true_iff.mp steady
      intro point next value thread determined on charted follows visited safe
      have one := ihFirst steadyFirst determined on charted.2.1 fun later matched =>
        follows later (Or.inl matched)
      have other := ihSecond steadySecond determined on charted.2.2 fun later matched =>
        follows later (Or.inr matched)
      refine Explains.enter on (charted.1 thread on) safe fun later low => ?_
      refine (one later (low _ ?_)).orElse (low _ ?_) other
      · simp only [Regex.ways, Ways.size]
        omega
      · simp only [Regex.ways, Ways.size]
        omega
  | times greedy least most body ih =>
      obtain ⟨steadyBody, bounds⟩ := Bool.and_eq_true_iff.mp steady
      have bodyFollows : BodyFollows text chart body := ih steadyBody
      intro point next value thread determined on charted follows
      have inner : ∀ index < least,
          body.Charted text chart (point + index * (body.pointCount + 1) + 1)
            (restWays greedy least most body.ways value (index + 1)) := by
        intro index less
        refine (charted index ?_).2
        cases most with
        | some most => exact Nat.lt_of_lt_of_le less (of_decide_eq_true bounds)
        | none => exact Nat.lt_of_lt_of_le less (Nat.le_max_left _ _)
      refine inTurn_follows bodyFollows determined inner (Nat.zero_add least) on rfl
        fun later on' asked => ?_
      cases most with
      | some most =>
          have fits : least ≤ most := of_decide_eq_true bounds
          refine upTo_follows bodyFollows determined charted (Nat.add_sub_cancel' fits)
            (Nat.le_refl _) on' asked fun last made low high rounds => ?_
          refine follows last ⟨made, low, ?_, rounds⟩
          rintro _ ⟨⟩
          omega
      | none =>
          have takes : body.isNullable = false := by simpa using bounds
          -- The choice point of the loop is that of the last round that is asked for.
          obtain ⟨known, charted⟩ := charted (least - 1)
            (show least - 1 < max least 1 by omega)
          rw [restWays_none (Nat.le_max_left _ _)] at known
          rw [restWays_none (show least ≤ least - 1 + 1 by omega)] at charted
          rw [restWays_none (Nat.le_refl least)]
          have enough := on'.offset_add
          refine loop_follows bodyFollows determined takes known charted (by omega) on'
            fun last made others => ?_
          exact follows last ⟨least + made, by omega, by simp, asked.append others⟩
  | group index body ih =>
      intro point next value thread determined on charted follows
      have closed : ∀ t u : Thread, t.cursor = u.cursor →
          (value (t.close index thread.cursor)).Alike (value u) :=
        fun t u place => determined _ u place
      refine ih steady (fun t u place => ?_) on (charted.of_sameWays closed)
        fun later matched => ?_
      · exact determined _ _ place
      · exact follows _ ⟨later, matched, rfl⟩

end Exploration

/-! ### Matches -/

/-- Nothing that was visited has a way to succeed. -/
def Spent (text : Text) (chart : Chart) (visited : Visited) : Prop :=
  ∀ bound, Safe text chart bound visited

theorem spent_empty (text : Text) (chart : Chart) : Spent text chart ∅ := by
  intro bound point offset _ seen
  simp at seen

/-- The chart of a pattern that is followed by nothing. -/
def Regex.Mapped (regex : Regex) (text : Text) (chart : Chart) : Prop :=
  regex.Charted text chart 0 .one

theorem sameWays_one : SameWays .one .one := fun _ _ _ => ⟨rfl, rfl⟩

theorem Regex.exists_mapped (regex : Regex) (text : Text) :
    ∃ chart, regex.Mapped text chart := by
  obtain ⟨chart, -, charted⟩ := exists_charted text regex (fun _ _ => .none) 0
    sameWays_one
  exact ⟨chart, charted⟩

/-- An attempt at a place finds the first match there. -/
theorem attempt_explains {regex : Regex} (steady : regex.isSteady = true) {text : Text}
    {chart : Chart} (mapped : regex.Mapped text chart) {cursor : Cursor} (on : cursor.On text)
    {visited : Visited} (spent : Spent text chart visited) :
    Explains text chart visited (regex.ways .one ⟨cursor, []⟩)
      (regex.attempt text.length cursor visited) := by
  have ends : ∀ later, Follows text chart (fun thread _ => .found thread) .one later :=
    fun _ _ _ => rfl
  exact explore_follows regex steady sameWays_one on mapped (fun later _ => ends later) visited
    (spent _)

/-- Cut a text at the first matches of a pattern, with no memory. The arguments are those of
`Regex.piecesFrom`. -/
def Regex.firstPieces (regex : Regex) : Nat → Bool → Cursor → Text → List Piece
  | _ + 1, _, _, [] => []
  | skip + 1, _, cursor, c :: rest => regex.firstPieces skip true (cursor.step c rest) rest
  | 0, closed, cursor, [] =>
      match regex.first cursor with
      | some thread => if closed then [] else [.matched ⟨[], thread.captures⟩]
      | none => []
  | 0, closed, cursor, c :: rest =>
      match regex.first cursor with
      | none => .kept c :: regex.firstPieces 0 false (cursor.step c rest) rest
      | some thread =>
          let found : Match := ⟨cursor.textTo thread.cursor, thread.captures⟩
          match found.text.length with
          | length + 1 => .matched found :: regex.firstPieces length true (cursor.step c rest) rest
          | 0 =>
              let behind := .kept c :: regex.firstPieces 0 false (cursor.step c rest) rest
              if closed then behind else .matched found :: behind

theorem piecesFrom_eq {regex : Regex} (steady : regex.isSteady = true) {text : Text}
    {chart : Chart} (mapped : regex.Mapped text chart) (behind : Text) (skip : Nat) (closed : Bool)
    {visited : Visited} (spent : Spent text chart visited) {cursor : Cursor}
    (here : cursor.rest = behind) (on : cursor.On text) :
    regex.piecesFrom text.length skip closed visited cursor behind =
      regex.firstPieces skip closed cursor behind := by
  have found : ∀ {cursor visited}, Cursor.On text cursor → Spent text chart visited →
      Explains text chart visited (regex.ways .one ⟨cursor, []⟩)
        (regex.attempt text.length cursor visited) := fun on spent =>
    attempt_explains steady mapped on spent
  induction behind generalizing skip closed visited cursor with
  | nil =>
      cases skip with
      | succ skip => rfl
      | zero =>
          have explained := found on spent
          unfold Regex.piecesFrom Regex.firstPieces Regex.first
          cases outcome : regex.attempt text.length cursor visited with
          | found thread =>
              rw [outcome] at explained
              rw [show (regex.ways .one ⟨cursor, []⟩).first = some thread from explained]
          | failed later =>
              rw [outcome] at explained
              rw [explained.1]
  | cons c rest ih =>
      have onward : (cursor.step c rest).On text := Cursor.Reaches.trans on (.step here)
      cases skip with
      | succ skip => exact ih skip true spent rfl onward
      | zero =>
          have explained := found on spent
          unfold Regex.piecesFrom Regex.firstPieces Regex.first
          cases outcome : regex.attempt text.length cursor visited with
          | found thread =>
              rw [outcome] at explained
              rw [show (regex.ways .one ⟨cursor, []⟩).first = some thread from explained]
              have empty := spent_empty text chart
              have later := fun skip closed => ih skip closed empty rfl onward
              dsimp only
              cases (cursor.textTo thread.cursor).length with
              | zero => simp only [later]
              | succ length => simp only [later]
          | failed later =>
              rw [outcome] at explained
              have spentLater : Spent text chart later := fun bound => explained.safe (spent bound)
              rw [explained.1]
              simp only [ih 0 false spentLater rfl onward]

/-- **A text is cut at the first matches**, whatever the search remembers. -/
theorem pieces_eq {regex : Regex} (steady : regex.isSteady = true) (text : Text) :
    regex.pieces text = regex.firstPieces 0 false ⟨0, none, text⟩ text := by
  obtain ⟨chart, mapped⟩ := regex.exists_mapped text
  exact piecesFrom_eq steady mapped text 0 false (spent_empty text chart) rfl (.refl _)

end CrossShade.Pattern
