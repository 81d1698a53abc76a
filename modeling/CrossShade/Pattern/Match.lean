import Std.Data.TreeSet
import CrossShade.Pattern.Regex

/-!
Matching a pattern against a text. Of all the ways a pattern can match at a place the one
that comes first counts, and of all places the leftmost.

`Regex.explore` tries the ways in order and hands the place each one reaches to what
follows, until something succeeds. Wherever a pattern can go on in several ways it has a
choice point. Whether anything can succeed from a choice point depends on the place alone
and not on how it was reached, so each choice point is entered at most once at each place:
what has been tried there, and is still being tried, is not tried again. This keeps the
time in proportion to the text, and it is what ends a repetition whose body takes no
character.

Choice points are numbered from left to right through the pattern, and a body that is
repeated a given number of times has choice points of its own in each of its rounds. So what
follows a choice point has a higher number or stands further on in the text, unless a
repetition without bound has a body that takes no character.
-/

namespace CrossShade.Pattern

/-! ### Places -/

/-- A place in a text: how many characters stand before it, the last of them, and the text
from there on. -/
structure Cursor where
  offset : Nat
  before : Option Char
  rest : Text
deriving DecidableEq, Repr

namespace Cursor

/-- The place behind the first character `c` of the rest. -/
def step (cursor : Cursor) (c : Char) (rest : Text) : Cursor :=
  ⟨cursor.offset + 1, some c, rest⟩

/-- The text between a place and a later one. -/
def textTo (start stop : Cursor) : Text :=
  start.rest.take (stop.offset - start.offset)

/-- Whether exactly one side of the place is a word character. -/
def atWordEdge (cursor : Cursor) : Bool :=
  cursor.before.any Text.isWordChar != cursor.rest.head?.any Text.isWordChar

/-- Whether the condition holds at the place. -/
def satisfies (cursor : Cursor) : Anchor → Bool
  | .textStart => cursor.before.isNone
  | .textEnd => cursor.rest.isEmpty
  | .lineStart => cursor.before.all (· == '\n')
  | .lineEnd => cursor.rest.head?.all (· == '\n')
  | .wordEdge => cursor.atWordEdge
  | .noWordEdge => !cursor.atWordEdge

end Cursor

/-- What a group matched: its number and the places where it begins and ends. -/
structure Capture where
  index : Nat
  start : Cursor
  stop : Cursor
deriving DecidableEq, Repr

/-- The text that a group matched. -/
def Capture.text (capture : Capture) : Text :=
  capture.start.textTo capture.stop

/-- One way of matching so far: the place reached, and what the groups have matched, the
latest first. -/
structure Thread where
  cursor : Cursor
  captures : List Capture
deriving DecidableEq, Repr

namespace Thread

/-- Take the first character `c` of the rest. -/
def step (thread : Thread) (c : Char) (rest : Text) : Thread :=
  ⟨thread.cursor.step c rest, thread.captures⟩

/-- Close a group that was opened at `start`. -/
def close (thread : Thread) (index : Nat) (start : Cursor) : Thread :=
  ⟨thread.cursor, ⟨index, start, thread.cursor⟩ :: thread.captures⟩

end Thread

/-! ### Choice points -/

/-- The choice points that have been entered, each with the place where it was. -/
abbrev Visited := Std.TreeSet Nat

/-- What an exploration comes to: a match, or a failure that passes on what was visited. -/
inductive Outcome where
  | found (thread : Thread)
  | failed (visited : Visited)

/-- Try something else after a failure. -/
def Outcome.orElse (outcome : Outcome) (other : Visited → Outcome) : Outcome :=
  match outcome with
  | .found thread => .found thread
  | .failed visited => other visited

/-- What is done with a place once it is reached. -/
abbrev Continuation := Thread → Visited → Outcome

/-- A choice point at a place, as one number. No offset is above `limit`. -/
def visitKey (limit point offset : Nat) : Nat :=
  point * (limit + 1) + offset

/-- Enter a choice point, unless it has been entered at this place before. -/
def enter (limit point : Nat) (cursor : Cursor) (visited : Visited)
    (go : Visited → Outcome) : Outcome :=
  let key := visitKey limit point cursor.offset
  if visited.contains key then .failed visited else go (visited.insert key)

/-- Make one more round or leave, in the order that greed asks for. -/
def choose (greedy : Bool) (again leave : Visited → Outcome) (visited : Visited) : Outcome :=
  if greedy then (again visited).orElse leave else (leave visited).orElse again

/-- Continue with each thread in turn until one succeeds. -/
def tryEach (next : Continuation) : List Thread → Visited → Outcome
  | [], visited => .failed visited
  | thread :: threads, visited =>
      match next thread visited with
      | .found result => .found result
      | .failed visited => tryEach next threads visited

/-! ### Exploration -/

/-- The threads that characters of the set lead to, the longest first, up to a place where
the choice point has been entered before; and what is visited then. The last argument but
two is the text at the thread's place. -/
def spanThreads (limit point : Nat) (chars : CharSet) :
    Text → Thread → List Thread → Visited → List Thread × Visited
  | text, thread, shorter, visited =>
      let key := visitKey limit point thread.cursor.offset
      if visited.contains key then (shorter, visited)
      else
        match text with
        | [] => (thread :: shorter, visited.insert key)
        | c :: rest =>
            if chars.has c then
              spanThreads limit point chars rest (thread.step c rest) (thread :: shorter)
                (visited.insert key)
            else (thread :: shorter, visited.insert key)

/-- Leave at once, and take characters of the set one at a time as long as that fails. -/
def spanLazily (limit point : Nat) (chars : CharSet) (next : Continuation) :
    Text → Continuation
  | text, thread, visited =>
      enter limit point thread.cursor visited fun visited =>
        match next thread visited with
        | .found result => .found result
        | .failed visited =>
            match text with
            | [] => .failed visited
            | c :: rest =>
                if chars.has c then
                  spanLazily limit point chars next rest (thread.step c rest) visited
                else .failed visited

/-- `count` rounds, numbered from `index` on, and then what follows. -/
def inTurn (round : Nat → Continuation → Continuation) (next : Continuation) :
    Nat → Nat → Continuation
  | 0, _, thread, visited => next thread visited
  | count + 1, index, thread, visited =>
      round index (inTurn round next count (index + 1)) thread visited

/-- At most `count` rounds, numbered from `index` on, each one only after those before it.
Before each round stands its choice point. -/
def upTo (limit : Nat) (point : Nat → Nat) (greedy : Bool)
    (round : Nat → Continuation → Continuation) (next : Continuation) : Nat → Nat → Continuation
  | 0, _, thread, visited => next thread visited
  | count + 1, index, thread, visited =>
      enter limit (point index) thread.cursor visited
        (choose greedy
          (round index (upTo limit point greedy round next count (index + 1)) thread)
          (next thread))

/-- Any number of rounds. All of them share one choice point, which is entered at most once
at each place; so `fuel` above the length of the text is never used up. -/
def loop (limit point : Nat) (greedy : Bool) (round : Continuation → Continuation)
    (next : Continuation) : Nat → Continuation
  | 0, _, visited => .failed visited
  | fuel + 1, thread, visited =>
      enter limit point thread.cursor visited
        (choose greedy (round (loop limit point greedy round next fuel) thread) (next thread))

/-- How many rounds of a repetition have choice points of their own. The rounds without
bound all share those of the last one that is asked for. -/
def roundCount (least : Nat) (most : Option Nat) : Nat :=
  match most with
  | some most => most
  | none => max least 1

/-- How many choice points a pattern has. -/
def Regex.pointCount : Regex → Nat
  | .empty => 0
  | .set _ => 0
  | .span _ _ => 1
  | .anchor _ => 0
  | .seq first second => first.pointCount + second.pointCount
  | .alt first second => first.pointCount + second.pointCount + 1
  | .times _ least most body => roundCount least most * (body.pointCount + 1)
  | .group _ body => body.pointCount

/-- Explore the ways a pattern matches from a place, first to last. Its choice points are
numbered from `point` on, and no place is further than `limit` characters into the text. -/
def Regex.explore (limit : Nat) : Regex → Nat → Continuation → Continuation
  | .empty, _, next, thread, visited => next thread visited
  | .set chars, _, next, thread, visited =>
      match thread.cursor.rest with
      | [] => .failed visited
      | c :: rest =>
          if chars.has c then next (thread.step c rest) visited else .failed visited
  | .span true chars, point, next, thread, visited =>
      let (threads, visited) := spanThreads limit point chars thread.cursor.rest thread [] visited
      tryEach next threads visited
  | .span false chars, point, next, thread, visited =>
      spanLazily limit point chars next thread.cursor.rest thread visited
  | .anchor place, _, next, thread, visited =>
      if thread.cursor.satisfies place then next thread visited else .failed visited
  | .seq first second, point, next, thread, visited =>
      first.explore limit point (second.explore limit (point + first.pointCount) next)
        thread visited
  | .alt first second, point, next, thread, visited =>
      enter limit point thread.cursor visited fun visited =>
        (first.explore limit (point + 1) next thread visited).orElse
          (second.explore limit (point + 1 + first.pointCount) next thread)
  | .times greedy least most body, point, next, thread, visited =>
      let stride := body.pointCount + 1
      let own := fun index => point + index * stride
      let round := fun index => body.explore limit (own index + 1)
      let more := match most with
        | some most => upTo limit own greedy round next (most - least) least
        | none => loop limit (own (least - 1)) greedy (round (least - 1)) next (limit + 1)
      inTurn round more least 0 thread visited
  | .group index body, point, next, thread, visited =>
      body.explore limit point (fun reached => next (reached.close index thread.cursor))
        thread visited

/-! ### Matches and replacement -/

/-- A match: the text it covers and what its groups matched. -/
structure Match where
  text : Text
  captures : List Capture
deriving DecidableEq, Repr

/-- What a group matched, if it took part. Group zero is the whole match. -/
def Match.group? (found : Match) (index : Nat) : Option Text :=
  if index = 0 then some found.text
  else (found.captures.find? (·.index == index)).map Capture.text

/-- Match a pattern exactly at a place. -/
def Regex.attempt (regex : Regex) (limit : Nat) (cursor : Cursor) (visited : Visited) : Outcome :=
  regex.explore limit 0 (fun thread _ => .found thread) ⟨cursor, []⟩ visited

/-- A text cut up by its matches: characters between them, and the matches. -/
inductive Piece where
  | kept (c : Char)
  | matched (found : Match)
deriving DecidableEq, Repr

/-- Cut a text at the matches of a pattern, from the left. The first `skip` characters
belong to the last match; `closed` tells that a match ends right here, in which case an
empty match is passed over. A place where the pattern fails leaves what was visited to the
places behind it, and after a match the search begins afresh. -/
def Regex.piecesFrom (regex : Regex) (limit : Nat) :
    Nat → Bool → Visited → Cursor → Text → List Piece
  | _ + 1, _, _, _, [] => []
  | skip + 1, _, visited, cursor, c :: rest =>
      regex.piecesFrom limit skip true visited (cursor.step c rest) rest
  | 0, closed, visited, cursor, [] =>
      match regex.attempt limit cursor visited with
      | .found thread => if closed then [] else [.matched ⟨[], thread.captures⟩]
      | .failed _ => []
  | 0, closed, visited, cursor, c :: rest =>
      match regex.attempt limit cursor visited with
      | .failed visited =>
          .kept c :: regex.piecesFrom limit 0 false visited (cursor.step c rest) rest
      | .found thread =>
          let found : Match := ⟨cursor.textTo thread.cursor, thread.captures⟩
          match found.text.length with
          | length + 1 =>
              .matched found :: regex.piecesFrom limit length true ∅ (cursor.step c rest) rest
          | 0 =>
              let behind :=
                .kept c :: regex.piecesFrom limit 0 false ∅ (cursor.step c rest) rest
              if closed then behind else .matched found :: behind

/-- The pieces of a whole text. -/
def Regex.pieces (regex : Regex) (text : Text) : List Piece :=
  regex.piecesFrom text.length 0 false ∅ ⟨0, none, text⟩ text

/-- The text with every match replaced by `value` of it. -/
def Regex.replaceAll (regex : Regex) (value : Match → Text) (text : Text) : Text :=
  (regex.pieces text).flatMap fun
    | .kept c => [c]
    | .matched found => value found

end CrossShade.Pattern
