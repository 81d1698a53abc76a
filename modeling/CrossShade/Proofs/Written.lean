import CrossShade.Proofs.Folding
import CrossShade.Proofs.Grammar
import CrossShade.Proofs.Unmarked

/-!
Sources as they are written: a list of clauses with any layout between their words. A clause is
a declaration, a precision statement, a stray semicolon or a function. The layout is part of
the syntax, so `Written.render` is a plain concatenation and every source of this sort has a
term of its own.

What a clause states depends on what the substitution makes of its words. `change` stands for
the substitution throughout: `rendered change` is the text after it, and `program change` is
the program that the text should state.
-/

namespace CrossShade

open CrossShade.Enclosed CrossShade.Comment

/-! ### Words and layout -/

/-- Layout that may be missing. -/
structure Gap where
  text : Text
  spacing : Layout.AllSpacing text := by decide

/-- Layout that keeps two words apart. -/
structure Break extends Gap where
  nonempty : text ≠ [] := by decide

/-- A word made of ASCII letters, digits and underscores. -/
structure Identifier where
  text : Text
  nonempty : text ≠ [] := by decide
  letters : ∀ c ∈ text, Text.isIdentifierChar c = true := by decide

/-- The precisions that a declaration may ask for. -/
inductive Precision where
  | low
  | medium
  | high
deriving DecidableEq, Repr

/-- The word for a precision. -/
def Precision.word : Precision → Text
  | .low => "lowp".toList
  | .medium => "mediump".toList
  | .high => "highp".toList

/-- Words with layout before each of them, and with `change` applied to them. -/
def spaced (change : Text → Text) (words : List (Break × Text)) : Text :=
  words.flatMap fun (before, word) => before.text ++ change word

/-! ### Clauses -/

/-- One item of a source, with the layout between its parts. -/
inductive Clause where
  | declaration (qualifier : Qualifier) (precisions : List (Break × Precision)) (beforeType : Break)
      (type : Identifier) (beforeName : Break) (name : Identifier) (beforeStop : Gap)
  | precision (words : List (Break × Identifier)) (beforeStop : Gap)
  | stray
  | function (returnType : Identifier) (beforeName : Break) (name : Identifier)
      (beforeParams : Gap) (params : Text) (beforeBody : Gap) (body : Text)

namespace Clause

/-- The clause without its last character, with `change` applied to its words and raw parts. -/
def front (change : Text → Text) : Clause → Text
  | .declaration qualifier precisions beforeType type beforeName name beforeStop =>
      change qualifier.keyword
        ++ (spaced change (precisions.map fun (before, asked) => (before, asked.word))
        ++ (beforeType.text ++ (change type.text ++ (beforeName.text ++ (change name.text
        ++ beforeStop.text)))))
  | .precision words beforeStop =>
      change Program.precisionKeyword
        ++ (spaced change (words.map fun (before, word) => (before, word.text))
        ++ beforeStop.text)
  | .stray => []
  | .function returnType beforeName name beforeParams params beforeBody body =>
      change returnType.text ++ (beforeName.text ++ (change name.text ++ (beforeParams.text
        ++ '(' :: (change params ++ ')' :: (beforeBody.text ++ '{' :: change body)))))

/-- The last character of the clause. -/
def last : Clause → Char
  | .declaration .. => ';'
  | .precision .. => ';'
  | .stray => ';'
  | .function .. => '}'

/-- The clause, with `change` applied to its words and raw parts. -/
def rendered (change : Text → Text) (clause : Clause) : Text :=
  clause.front change ++ [clause.last]

/-- The item that the clause states after the change. -/
def item? (change : Text → Text) : Clause → Option Item
  | .declaration qualifier _ _ type _ name _ =>
      some (.declaration qualifier ⟨change type.text, change name.text⟩)
  | .precision .. => none
  | .stray => none
  | .function returnType _ name _ params _ body =>
      some (.function ⟨change name.text, change returnType.text,
        Text.trimStart (Layout.fold (change params)), Text.trim (Layout.fold (change body))⟩)

/-- A word that is still one word after the change. -/
def IsName (text : Text) : Prop :=
  text ≠ [] ∧ ' ' ∉ text

instance (text : Text) : Decidable (IsName text) :=
  inferInstanceAs (Decidable (text ≠ [] ∧ ' ' ∉ text))

/-- What is asked of a clause after the change. -/
def WellFormed (change : Text → Text) : Clause → Prop
  | .declaration _ _ _ type _ name _ => IsName (change type.text) ∧ IsName (change name.text)
  | .precision .. => True
  | .stray => True
  | .function returnType _ name _ params _ body =>
      (IsName (change returnType.text) ∧ IsName (change name.text)) ∧
      ((∀ qualifier : Qualifier, change returnType.text ≠ qualifier.keyword) ∧
        change returnType.text ≠ Program.precisionKeyword) ∧
      (Balanced '(' ')' (change params) ∧ Unmarked (change params)) ∧
      (Balanced '{' '}' (change body) ∧ Unmarked (change body))

instance (change : Text → Text) (clause : Clause) : Decidable (clause.WellFormed change) :=
  match clause with
  | .declaration .. => inferInstanceAs (Decidable (_ ∧ _))
  | .precision .. => inferInstanceAs (Decidable True)
  | .stray => inferInstanceAs (Decidable True)
  | .function .. => inferInstanceAs (Decidable ((_ ∧ _) ∧ ((∀ _, _) ∧ _) ∧ (_ ∧ _) ∧ (_ ∧ _)))

end Clause

/-! ### Whole sources -/

/-- A source: clauses with layout before each of them, and layout at the end. -/
structure Written where
  clauses : List (Gap × Clause)
  trailing : Gap

namespace Written

/-- The text of the source, with `change` applied to its words and raw parts. -/
def rendered (change : Text → Text) (source : Written) : Text :=
  source.clauses.flatMap (fun (before, clause) => before.text ++ clause.rendered change)
    ++ source.trailing.text

/-- The text of the source. -/
def render (source : Written) : Text :=
  source.rendered id

/-- The items that the source states after the change, in its order. -/
def items (change : Text → Text) (source : Written) : List Item :=
  source.clauses.filterMap fun (_, clause) => clause.item? change

/-- The program that the source states after the change: the declarations by category and the
functions, each in the order of the source. -/
def program (change : Text → Text) (source : Written) : Program where
  attributes := (source.items change).filterMap (Item.declared? .attribute)
  uniforms := (source.items change).filterMap (Item.declared? .uniform)
  varyings := (source.items change).filterMap (Item.declared? .varying)
  functions := (source.items change).filterMap Item.defined?

/-- Every clause is well formed after the change, and one function is the entry point. -/
structure WellFormed (change : Text → Text) (source : Written) : Prop where
  clauses : ∀ entry ∈ source.clauses, entry.2.WellFormed change
  oneMain : (source.program change).functions.countP Function.isMain = 1

instance (change : Text → Text) (source : Written) : Decidable (source.WellFormed change) :=
  decidable_of_iff
    ((∀ entry ∈ source.clauses, entry.2.WellFormed change) ∧
      (source.program change).functions.countP Function.isMain = 1)
    ⟨fun h => ⟨h.1, h.2⟩, fun h => ⟨h.clauses, h.oneMain⟩⟩

end Written

end CrossShade
