import CrossShade.Proofs.Matching

/-!
The ways a pattern matches, in the order they are tried. `Regex.ways` lays them out as a tree,
with no memory of what was tried before; its first leaf is the match that counts, and its size
is the number of choices that lie ahead.

* `Respects.ways`: what a pattern does depends on what follows only through the places it can
  reach. So the tree at a place is the same for all threads that stand there, up to the threads
  at its leaves (`SameWays.ways`).
* `loopWays_eq`: a repetition whose rounds take characters is one more round or none.
-/

namespace CrossShade.Pattern

/-- The ways to go on from a place: none, one that ends well, or those of one branch of a choice
before those of the other. -/
inductive Ways where
  | none
  | one (thread : Thread)
  | either (front back : Ways)

namespace Ways

/-- The way that comes first. -/
def first : Ways → Option Thread
  | none => .none
  | one thread => some thread
  | either front back => front.first.or back.first

/-- The number of choices. -/
def size : Ways → Nat
  | none => 0
  | one _ => 0
  | either front back => front.size + back.size + 1

/-- One more round or leaving, in the order that greed asks for. -/
def order (greedy : Bool) (again leave : Ways) : Ways :=
  if greedy then either again leave else either leave again

@[simp] theorem first_none : none.first = .none := rfl

@[simp] theorem first_one (thread : Thread) : (one thread).first = some thread := rfl

@[simp] theorem first_either (front back : Ways) :
    (either front back).first = front.first.or back.first := rfl

@[simp] theorem first_order_greedy (again leave : Ways) :
    (order true again leave).first = again.first.or leave.first := rfl

@[simp] theorem first_order_lazy (again leave : Ways) :
    (order false again leave).first = leave.first.or again.first := rfl

/-- The same choices, and something at the end of them in both or in neither. -/
structure Alike (left right : Ways) : Prop where
  finds : left.first.isSome = right.first.isSome
  size_eq : left.size = right.size

theorem Alike.refl (ways : Ways) : ways.Alike ways :=
  ⟨rfl, rfl⟩

theorem Alike.trans {left middle right : Ways} (one : left.Alike middle)
    (other : middle.Alike right) : left.Alike right :=
  ⟨one.finds.trans other.finds, one.size_eq.trans other.size_eq⟩

theorem Alike.first_eq_none_iff {left right : Ways} (alike : left.Alike right) :
    left.first = .none ↔ right.first = .none := by
  rw [← Option.isNone_iff_eq_none, ← Option.isNone_iff_eq_none, ← Option.not_isSome,
    ← Option.not_isSome, alike.finds]

end Ways

/-! ### The ways of a pattern -/

/-- Any number of characters of a set. The last argument but one is the text at the thread's
place. -/
def spanWays (greedy : Bool) (chars : CharSet) (next : Thread → Ways) : Text → Thread → Ways
  | [], thread => .order greedy .none (next thread)
  | c :: rest, thread =>
      .order greedy
        (if chars.has c then spanWays greedy chars next rest (thread.step c rest) else .none)
        (next thread)

/-- `count` rounds. -/
def turnWays (round : (Thread → Ways) → Thread → Ways) (next : Thread → Ways) :
    Nat → Thread → Ways
  | 0, thread => next thread
  | count + 1, thread => round (turnWays round next count) thread

/-- At most `count` rounds. -/
def upToWays (greedy : Bool) (round : (Thread → Ways) → Thread → Ways) (next : Thread → Ways) :
    Nat → Thread → Ways
  | 0, thread => next thread
  | count + 1, thread =>
      .order greedy (round (upToWays greedy round next count) thread) (next thread)

/-- Any number of rounds below `fuel`. -/
def roundWays (greedy : Bool) (round : (Thread → Ways) → Thread → Ways) (next : Thread → Ways) :
    Nat → Thread → Ways
  | 0, _ => .none
  | fuel + 1, thread =>
      .order greedy (round (roundWays greedy round next fuel) thread) (next thread)

/-- Any number of rounds. If each takes a character there are no more of them than there are
characters left. -/
def loopWays (greedy : Bool) (round : (Thread → Ways) → Thread → Ways) (next : Thread → Ways)
    (thread : Thread) : Ways :=
  roundWays greedy round next (thread.cursor.rest.length + 1) thread

/-- What is left of a repetition when `made` rounds are made. -/
def restWays (greedy : Bool) (least : Nat) (most : Option Nat)
    (round : (Thread → Ways) → Thread → Ways) (next : Thread → Ways) (made : Nat) :
    Thread → Ways :=
  turnWays round
    (match most with
      | some most => upToWays greedy round next (most - max least made)
      | none => loopWays greedy round next)
    (least - made)

/-- The ways a pattern matches from a place, and goes on from there. -/
def Regex.ways : Regex → (Thread → Ways) → Thread → Ways
  | .empty, next, thread => next thread
  | .set chars, next, thread =>
      match thread.cursor.rest with
      | [] => .none
      | c :: rest => if chars.has c then next (thread.step c rest) else .none
  | .span greedy chars, next, thread => spanWays greedy chars next thread.cursor.rest thread
  | .anchor place, next, thread => if thread.cursor.satisfies place then next thread else .none
  | .seq first second, next, thread => first.ways (second.ways next) thread
  | .alt first second, next, thread => .either (first.ways next thread) (second.ways next thread)
  | .times greedy least most body, next, thread =>
      restWays greedy least most body.ways next 0 thread
  | .group index body, next, thread =>
      body.ways (fun reached => next (reached.close index thread.cursor)) thread

/-- The match of a pattern at a place that comes first. -/
def Regex.first (regex : Regex) (cursor : Cursor) : Option Thread :=
  (regex.ways .one ⟨cursor, []⟩).first

/-! ### Characters in a row -/

section Row

variable {next : Thread → Ways} {thread : Thread} {c d : Char} {text rest : Text}

theorem ways_set_nil {chars : CharSet} (here : thread.cursor.rest = []) :
    (Regex.set chars).ways next thread = .none := by
  simp only [Regex.ways, here]

theorem ways_set_cons {chars : CharSet} (here : thread.cursor.rest = c :: rest) :
    (Regex.set chars).ways next thread =
      if chars.has c then next (thread.step c rest) else .none := by
  simp only [Regex.ways, here]

theorem ways_char_cons (here : thread.cursor.rest = d :: rest) :
    (Regex.char c).ways next thread = if d = c then next (thread.step d rest) else .none := by
  rw [Regex.char, ways_set_cons here]
  simp only [CharSet.has_single]

theorem ways_concat_cons (first : Regex) (others : List Regex) (next : Thread → Ways) :
    (Regex.concat (first :: others)).ways next = first.ways ((Regex.concat others).ways next) := by
  cases others with
  | nil => rfl
  | cons second others => rfl

/-- A text as a pattern goes on behind itself. -/
theorem ways_literal (here : thread.cursor.rest = text ++ rest) :
    (Regex.literal text).ways next thread =
      next ⟨thread.cursor.advance text rest, thread.captures⟩ := by
  induction text generalizing thread with
  | nil =>
      obtain rfl : thread.cursor.rest = rest := here
      rw [Cursor.advance_nil]
      rfl
  | cons c text ih =>
      have here' : thread.cursor.rest = c :: (text ++ rest) := here
      have later := @ih (thread.step c (text ++ rest)) rfl
      rw [Regex.literal, List.map_cons, ways_concat_cons, ways_char_cons here', if_pos rfl]
      rw [← Cursor.step_advance]
      exact later

/-- A text as a pattern leads nowhere where the text is another one. -/
theorem ways_literal_eq_none (other : ¬ text <+: thread.cursor.rest) :
    (Regex.literal text).ways next thread = .none := by
  induction text generalizing thread with
  | nil => exact absurd List.nil_prefix other
  | cons c text ih =>
      rw [Regex.literal, List.map_cons, ways_concat_cons]
      cases here : thread.cursor.rest with
      | nil => exact ways_set_nil here
      | cons d rest =>
          rw [ways_char_cons here]
          split
          · next same =>
              subst same
              refine ih fun front => other ?_
              rw [here]
              exact (List.prefix_cons_inj d).mpr front
          · rfl

end Row

/-! ### Rounds to come -/

section Rest

variable {greedy : Bool} {least : Nat} {most : Option Nat} {value : Thread → Ways}

theorem restWays_of_lt (round : (Thread → Ways) → Thread → Ways) {made : Nat}
    (less : made < least) :
    restWays greedy least most round value made =
      round (restWays greedy least most round value (made + 1)) := by
  obtain ⟨count, eq⟩ : ∃ count, least - made = count + 1 := ⟨least - made - 1, by omega⟩
  have eq' : least - (made + 1) = count := by omega
  have max_eq : max least made = max least (made + 1) := by omega
  funext thread
  simp only [restWays, eq, eq', max_eq, turnWays]

theorem restWays_some {round : (Thread → Ways) → Thread → Ways} {made bound : Nat}
    (enough : least ≤ made) :
    restWays greedy least (some bound) round value made =
      upToWays greedy round value (bound - made) := by
  funext thread
  simp only [restWays, Nat.sub_eq_zero_of_le enough, Nat.max_eq_right enough, turnWays]

theorem restWays_none {round : (Thread → Ways) → Thread → Ways} {made : Nat}
    (enough : least ≤ made) :
    restWays greedy least none round value made = loopWays greedy round value := by
  funext thread
  simp only [restWays, Nat.sub_eq_zero_of_le enough, turnWays]

end Rest

/-! ### Related ways -/

/-- A relation between threads that lasts while they go through a pattern, and one between ways
that lasts through choices. -/
structure Respects (S : Thread → Thread → Prop) (R : Ways → Ways → Prop) : Prop where
  cursor : ∀ {t u}, S t u → t.cursor = u.cursor
  step : ∀ {t u} (c : Char) (rest : Text), S t u → S (t.step c rest) (u.step c rest)
  close : ∀ {t u} (index : Nat) (start : Cursor), S t u →
    S (t.close index start) (u.close index start)
  none : R .none .none
  either : ∀ {front front' back back'}, R front front' → R back back' →
    R (.either front back) (.either front' back')

section Related

variable {S : Thread → Thread → Prop} {R : Ways → Ways → Prop} (respects : Respects S R)

include respects

theorem Respects.order {greedy : Bool} {again again' leave leave' : Ways} (goOn : R again again')
    (goOut : R leave leave') : R (.order greedy again leave) (.order greedy again' leave') := by
  cases greedy with
  | true => exact respects.either goOn goOut
  | false => exact respects.either goOut goOn

theorem Respects.spanWays {greedy : Bool} {chars : CharSet} {X Y : Thread → Ways} (text : Text)
    {t u : Thread} (same : S t u) (here : t.cursor.rest = text)
    (next : ∀ t' u', S t' u' → (Regex.span greedy chars).Matches t t' → R (X t') (Y u')) :
    R (spanWays greedy chars X text t) (spanWays greedy chars Y text u) := by
  induction text generalizing t u with
  | nil => exact respects.order respects.none (next t u same (Regex.span_matches_self _ _ _))
  | cons c rest ih =>
      refine respects.order ?_ (next t u same (Regex.span_matches_self _ _ _))
      split
      · next member =>
          refine ih (respects.step c rest same) rfl fun t' u' same' later => ?_
          exact next t' u' same' (Regex.span_matches_step here member later)
      · exact respects.none

/-! Rounds of a body whose ways are related. -/

section Rounds

variable (relation : Thread → Thread → Prop) {round round' : (Thread → Ways) → Thread → Ways}
  (rounds : ∀ {X Y : Thread → Ways} {t u : Thread}, S t u →
    (∀ t' u', S t' u' → relation t t' → R (X t') (Y u')) → R (round X t) (round' Y u))

include rounds

omit respects in
theorem Respects.turnWays {X Y : Thread → Ways} {count : Nat} {t u : Thread} (same : S t u)
    (next : ∀ t' u', S t' u' → Rounds relation count t t' → R (X t') (Y u')) :
    R (turnWays round X count t) (turnWays round' Y count u) := by
  induction count generalizing t u with
  | zero => exact next t u same rfl
  | succ count ih =>
      refine rounds same fun t' u' same' one => ih same' fun t'' u'' same'' others => ?_
      exact next t'' u'' same'' ⟨t', one, others⟩

theorem Respects.upToWays {greedy : Bool} {X Y : Thread → Ways} {count : Nat} {t u : Thread}
    (same : S t u)
    (next : ∀ t' u' made, S t' u' → made ≤ count → Rounds relation made t t' → R (X t') (Y u')) :
    R (upToWays greedy round X count t) (upToWays greedy round' Y count u) := by
  induction count generalizing t u with
  | zero => exact next t u 0 same (Nat.le_refl 0) rfl
  | succ count ih =>
      refine respects.order (rounds same fun t' u' same' one => ?_)
        (next t u 0 same (Nat.zero_le _) rfl)
      refine ih same' fun t'' u'' made same'' bound others => ?_
      exact next t'' u'' (made + 1) same'' (by omega) ⟨t', one, others⟩

theorem Respects.roundWays {greedy : Bool} {X Y : Thread → Ways} {fuel : Nat} {t u : Thread}
    (same : S t u)
    (next : ∀ t' u' made, S t' u' → Rounds relation made t t' → R (X t') (Y u')) :
    R (roundWays greedy round X fuel t) (roundWays greedy round' Y fuel u) := by
  induction fuel generalizing t u with
  | zero => exact respects.none
  | succ fuel ih =>
      refine respects.order (rounds same fun t' u' same' one => ?_) (next t u 0 same rfl)
      exact ih same' fun t'' u'' made same'' others =>
        next t'' u'' (made + 1) same'' ⟨t', one, others⟩

theorem Respects.restWays {greedy : Bool} {least : Nat} {most : Option Nat} {X Y : Thread → Ways}
    {made : Nat} {t u : Thread} (same : S t u)
    (next : ∀ t' u' count, S t' u' → least - made ≤ count →
      (∀ bound ∈ most, count ≤ (least - made) + (bound - max least made)) →
      Rounds relation count t t' → R (X t') (Y u')) :
    R (restWays greedy least most round X made t) (restWays greedy least most round' Y made u) := by
  refine Respects.turnWays relation rounds same fun t' u' same' asked => ?_
  cases most with
  | some most =>
      refine respects.upToWays relation rounds same' fun t'' u'' more same'' bound others => ?_
      refine next t'' u'' _ same'' (Nat.le_add_right _ more) ?_ (asked.append others)
      rintro _ ⟨⟩
      omega
  | none =>
      simp only [loopWays, respects.cursor same']
      refine respects.roundWays relation rounds same' fun t'' u'' more same'' others => ?_
      exact next t'' u'' _ same'' (Nat.le_add_right _ more) (by simp) (asked.append others)

end Rounds

/-- **What follows matters only where a pattern leads.** -/
theorem Respects.ways (regex : Regex) {X Y : Thread → Ways} {t u : Thread} (same : S t u)
    (next : ∀ t' u', S t' u' → regex.Matches t t' → R (X t') (Y u')) :
    R (regex.ways X t) (regex.ways Y u) := by
  induction regex generalizing X Y t u with
  | empty => exact next t u same rfl
  | set chars =>
      simp only [Regex.ways, ← respects.cursor same]
      split
      · exact respects.none
      · next c rest here =>
          split
          · next member =>
              exact next _ _ (respects.step c rest same) ⟨c, rest, here, member, rfl⟩
          · exact respects.none
  | span greedy chars =>
      simp only [Regex.ways, ← respects.cursor same]
      exact respects.spanWays _ same rfl next
  | anchor place =>
      simp only [Regex.ways, ← respects.cursor same]
      split
      · next holds => exact next t u same ⟨holds, rfl⟩
      · exact respects.none
  | seq front back ihFront ihBack =>
      refine ihFront same fun t' u' same' one => ihBack same' fun t'' u'' same'' other => ?_
      exact next t'' u'' same'' ⟨t', one, other⟩
  | alt front back ihFront ihBack =>
      exact respects.either
        (ihFront same fun t' u' same' matched => next t' u' same' (Or.inl matched))
        (ihBack same fun t' u' same' matched => next t' u' same' (Or.inr matched))
  | times greedy least most body ih =>
      refine respects.restWays body.Matches ih same ?_
      intro t' u' count same' asked bounded rounds
      refine next t' u' same' ⟨count, by omega, fun bound mem => ?_, rounds⟩
      have within := bounded bound mem
      omega
  | group index body ih =>
      simp only [Regex.ways, ← respects.cursor same]
      refine ih same fun t' u' same' matched => ?_
      exact next _ _ (respects.close index t.cursor same') ⟨t', matched, rfl⟩

end Related

theorem respects_eq : Respects Eq Eq where
  cursor same := same ▸ rfl
  step _ _ same := same ▸ rfl
  close _ _ same := same ▸ rfl
  none := rfl
  either front back := front ▸ back ▸ rfl

theorem respects_alike : Respects (fun t u => t.cursor = u.cursor) Ways.Alike where
  cursor same := same
  step _ _ same := by simp only [Thread.step, same]
  close _ _ same := same
  none := .refl _
  either front back := by
    refine ⟨?_, ?_⟩
    · simp only [Ways.first, Option.isSome_or, front.finds, back.finds]
    · simp only [Ways.size, front.size_eq, back.size_eq]

/-- Threads at one place have the same ways before them, up to the threads these end with. -/
def SameWays (X Y : Thread → Ways) : Prop :=
  ∀ t u : Thread, t.cursor = u.cursor → (X t).Alike (Y u)

theorem SameWays.ways {X Y : Thread → Ways} (same : SameWays X Y) (regex : Regex) :
    SameWays (regex.ways X) (regex.ways Y) := fun _ _ place =>
  respects_alike.ways regex place fun t' u' place' _ => same t' u' place'

theorem SameWays.restWays {X Y : Thread → Ways} (same : SameWays X Y) (greedy : Bool)
    (least : Nat) (most : Option Nat) (body : Regex) (made : Nat) :
    SameWays (restWays greedy least most body.ways X made)
      (restWays greedy least most body.ways Y made) := fun _ _ place =>
  respects_alike.restWays body.Matches (respects_alike.ways body) place
    fun t' u' _ place' _ _ _ => same t' u' place'

theorem SameWays.loopWays {X Y : Thread → Ways} (same : SameWays X Y) (greedy : Bool)
    (body : Regex) : SameWays (loopWays greedy body.ways X) (loopWays greedy body.ways Y) := by
  have rest := same.restWays greedy 0 none body 0
  rwa [restWays_none (Nat.le_refl 0), restWays_none (Nat.le_refl 0)] at rest

/-! ### Rounds that take characters -/

theorem Cursor.Reaches.length_le {start stop : Cursor} (reaches : start.Reaches stop) :
    stop.rest.length ≤ start.rest.length := by
  obtain ⟨taken, whole, -⟩ := reaches
  simp [whole]

/-- Rounds leave less text if one of them does. -/
theorem Rounds.length_lt {regex : Regex}
    (takes : ∀ {start stop}, regex.Matches start stop →
      stop.cursor.rest.length < start.cursor.rest.length)
    {count : Nat} (some : 0 < count) {start stop : Thread}
    (rounds : Rounds regex.Matches count start stop) :
    stop.cursor.rest.length < start.cursor.rest.length := by
  obtain ⟨count, rfl⟩ : ∃ less, count = less + 1 := ⟨count - 1, by omega⟩
  obtain ⟨middle, one, others⟩ := rounds
  exact Nat.lt_of_le_of_lt (others.reaches fun _ _ => Regex.Matches.reaches).length_le (takes one)

/-- A pattern that cannot match nothing takes a character. -/
theorem Regex.Matches.length_lt {regex : Regex} (takes : regex.isNullable = false)
    {start stop : Thread} (matched : regex.Matches start stop) :
    stop.cursor.rest.length < start.cursor.rest.length := by
  induction regex generalizing start stop with
  | empty => cases takes
  | set chars =>
      obtain ⟨c, rest, here, -, rfl⟩ := matched
      simp [Thread.step, Cursor.step, here]
  | span greedy chars => cases takes
  | anchor place => cases takes
  | seq front back ihFront ihBack =>
      obtain ⟨middle, one, other⟩ := matched
      have shorterFront := one.reaches.length_le
      have shorterBack := other.reaches.length_le
      rcases Bool.and_eq_false_iff.mp takes with takes | takes
      · exact Nat.lt_of_le_of_lt shorterBack (ihFront takes one)
      · exact Nat.lt_of_lt_of_le (ihBack takes other) shorterFront
  | alt front back ihFront ihBack =>
      obtain ⟨takesFront, takesBack⟩ := Bool.or_eq_false_iff.mp takes
      exact matched.elim (ihFront takesFront) (ihBack takesBack)
  | times greedy least most body ih =>
      obtain ⟨some, takes⟩ := Bool.or_eq_false_iff.mp takes
      obtain ⟨count, asked, -, rounds⟩ := matched
      exact rounds.length_lt (ih takes) (by simp at some; omega)
  | group index body ih =>
      obtain ⟨inner, enclosed, rfl⟩ := matched
      have shorter := ih takes enclosed
      exact shorter

section Loop

variable {greedy : Bool} {body : Regex} (takes : body.isNullable = false) {next : Thread → Ways}

include takes

/-- More rounds than there are characters left make no difference. -/
theorem roundWays_eq_loopWays {fuel : Nat} {thread : Thread}
    (enough : thread.cursor.rest.length < fuel) :
    roundWays greedy body.ways next fuel thread = loopWays greedy body.ways next thread := by
  have run : ∀ (fuel other : Nat) (thread : Thread), thread.cursor.rest.length < fuel →
      thread.cursor.rest.length < other → roundWays greedy body.ways next fuel thread =
        roundWays greedy body.ways next other thread := by
    intro fuel
    induction fuel with
    | zero => exact fun _ _ enough => absurd enough (Nat.not_lt_zero _)
    | succ fuel ih =>
        intro other thread enough enough'
        obtain ⟨other, rfl⟩ : ∃ less, other = less + 1 := ⟨other - 1, by omega⟩
        refine congrArg (Ways.order greedy · (next thread)) (respects_eq.ways body rfl ?_)
        rintro later _ rfl matched
        have shorter := matched.length_lt takes
        exact ih other later (by omega) (by omega)
  exact run fuel _ thread enough (Nat.lt_succ_self _)

/-- **A repetition is one more round or none**, if its rounds take characters. -/
theorem loopWays_eq (thread : Thread) :
    loopWays greedy body.ways next thread =
      .order greedy (body.ways (loopWays greedy body.ways next) thread) (next thread) := by
  refine congrArg (Ways.order greedy · (next thread)) (respects_eq.ways body rfl ?_)
  rintro later _ rfl matched
  exact roundWays_eq_loopWays takes (matched.length_lt takes)

end Loop

end CrossShade.Pattern
