import CrossShade.Text.Word
import CrossShade.Text.Case

/-!
Sets of characters, as patterns name them.
-/

namespace CrossShade.Pattern

/-- A set of characters. `anyCase` adds to a set every character that differs from one of
its members only in case. -/
inductive CharSet where
  | all
  | range (low high : Char)
  | word
  | digit
  | blank
  | anyCase (set : CharSet)
  | union (left right : CharSet)
  | inter (left right : CharSet)
  | compl (set : CharSet)
deriving DecidableEq, Repr

namespace CharSet

/-- Whether the character belongs to the set. -/
def has : CharSet → Char → Bool
  | .all, _ => true
  | .range low high, c => decide (low ≤ c) && decide (c ≤ high)
  | .word, c => Text.isWordChar c
  | .digit, c => Text.isDigit c
  | .blank, c => Text.isBlank c
  | .anyCase set, c => (Text.caseVariants c.toNat).any fun code => set.has (Char.ofNat code)
  | .union left right, c => left.has c || right.has c
  | .inter left right, c => left.has c && right.has c
  | .compl set, c => !set.has c

/-- The set of one character. -/
def single (c : Char) : CharSet := .range c c

/-- Every character but one. -/
def except (c : Char) : CharSet := .compl (single c)

/-- The set without members. -/
def none : CharSet := .compl .all

/-- The members of any of the sets. -/
def unions (sets : List CharSet) : CharSet :=
  match sets with
  | [] => none
  | [set] => set
  | set :: rest => .union set (unions rest)

/-- The set up to case. Complements are taken after the case is set aside, so that leaving
out a letter leaves out both its forms. -/
def ignoreCase : CharSet → CharSet
  | .range low high => .anyCase (.range low high)
  | .union left right => .union left.ignoreCase right.ignoreCase
  | .inter left right => .inter left.ignoreCase right.ignoreCase
  | .compl set => .compl set.ignoreCase
  | set => set

end CharSet

end CrossShade.Pattern
