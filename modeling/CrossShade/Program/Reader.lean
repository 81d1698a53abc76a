import CrossShade.Enclosed
import CrossShade.Program
import CrossShade.Token

/-!
Reading a program from its prepared text. Items follow one another: declarations of one
name, functions, precision statements and stray semicolons, of which the last two leave
nothing behind. A text that does not go on with an item fails there, and the reading
remembers the items before the failure and the text that was not looked at.
-/

namespace CrossShade.Program

/-- A part that was read with the text behind it, or a fault with the text behind the token
that showed it. -/
inductive Part (α : Type) where
  | done (value : α) (rest : Text)
  | failed (fault : Fault) (rest : Text)
deriving DecidableEq, Repr

/-- Read a declaration from behind its qualifier: a type, a name and a semicolon. -/
def readDeclaration (qualifier : Qualifier) (text : Text) : Part Declaration :=
  let type := Token.next text
  let name := Token.next type.2
  let stop := Token.next name.2
  if !Token.isWord type.1 then
    .failed (.malformedDeclaration qualifier.keyword "a type".toList type.1) type.2
  else if !Token.isWord name.1 then
    .failed (.malformedDeclaration qualifier.keyword "a name".toList name.1) name.2
  else if stop.1 ≠ [';'] then
    .failed (.malformedDeclaration qualifier.keyword "';'".toList stop.1) stop.2
  else .done ⟨type.1, name.1⟩ stop.2

/-- The word that starts a precision statement. -/
def precisionKeyword : Text := "precision".toList

/-- Pass over tokens up to a semicolon. -/
def skipStatement (text : Text) : Part Unit :=
  if _atEnd : (Token.next text).1 = [] then
    .failed (.malformedDeclaration precisionKeyword "';'".toList []) (Token.next text).2
  else if (Token.next text).1 = [';'] then .done () (Token.next text).2
  else skipStatement (Token.next text).2
termination_by text.length
decreasing_by exact Token.next_length text _atEnd

/-- Read a function from behind its return type. -/
def readFunction (returnType text : Text) : Part Function :=
  let name := Token.next text
  let paren := Token.next name.2
  let header := "header of function '".toList ++ name.1 ++ "'".toList
  if name.1 = [] then
    .failed (.unexpectedToken "function name".toList name.1
      ("declaration starting with '".toList ++ returnType ++ "'".toList)) name.2
  else if paren.1 ≠ ['('] then .failed (.unexpectedToken ['('] paren.1 header) paren.2
  else
    match Enclosed.params? paren.2 with
    | none => .failed (.unbalanced name.1 '(') paren.2
    | some (params, behind) =>
        let brace := Token.next behind
        if brace.1 ≠ ['{'] then .failed (.unexpectedToken ['{'] brace.1 header) brace.2
        else
          match Enclosed.body? brace.2 with
          | none => .failed (.unbalanced name.1 '{') brace.2
          | some (body, rest) => .done ⟨name.1, returnType, params, body⟩ rest

/-- One step of reading: the end of the text, something passed over, an item, or a fault. -/
inductive Step where
  | finished
  | skipped (rest : Text)
  | item (item : Item) (rest : Text)
  | failed (fault : Fault) (rest : Text)
deriving DecidableEq, Repr

/-- The text that is left to read, if reading goes on. -/
def Step.rest? : Step → Option Text
  | .finished => none
  | .skipped rest => some rest
  | .item _ rest => some rest
  | .failed _ _ => none

/-- Make one step. `hasMain` tells that an entry point was read before, so that another one
is a fault. -/
def readStep (hasMain : Bool) (text : Text) : Step :=
  let first := Token.next text
  if first.1 = [] then .finished
  else
    match Qualifier.ofKeyword? first.1 with
    | some qualifier =>
        match readDeclaration qualifier first.2 with
        | .done declaration rest => .item (.declaration qualifier declaration) rest
        | .failed fault rest => .failed fault rest
    | none =>
        if first.1 = [';'] then .skipped first.2
        else if first.1 = precisionKeyword then
          match skipStatement first.2 with
          | .done _ rest => .skipped rest
          | .failed fault rest => .failed fault rest
        else
          match readFunction first.1 first.2 with
          | .done function rest =>
              if function.isMain && hasMain then .failed .duplicateMain rest
              else .item (.function function) rest
          | .failed fault rest => .failed fault rest

/-! ### Reading moves forward -/

theorem readDeclaration_suffix {qualifier : Qualifier} {text rest : Text}
    {declaration : Declaration}
    (read : readDeclaration qualifier text = .done declaration rest) : rest <:+ text := by
  simp only [readDeclaration] at read
  split at read
  · cases read
  · split at read
    · cases read
    · split at read
      · cases read
      · cases read
        exact ((Token.next_suffix _).trans (Token.next_suffix _)).trans (Token.next_suffix _)

theorem skipStatement_suffix {text rest : Text} (read : skipStatement text = .done () rest) :
    rest <:+ text := by
  induction text using skipStatement.induct with
  | case1 text atEnd =>
      rw [skipStatement] at read
      simp [atEnd] at read
  | case2 text atEnd atStop =>
      rw [skipStatement] at read
      simp only [atStop, ↓reduceIte] at read
      cases read
      exact Token.next_suffix text
  | case3 text atEnd atStop ih =>
      rw [skipStatement] at read
      simp only [atEnd, atStop, ↓reduceDIte, ↓reduceIte] at read
      exact (ih read).trans (Token.next_suffix text)

theorem readFunction_suffix {returnType text rest : Text} {function : Function}
    (read : readFunction returnType text = .done function rest) : rest <:+ text := by
  simp only [readFunction] at read
  split at read
  · cases read
  · split at read
    · cases read
    · split at read
      · cases read
      · next params behind enclosed =>
          have header := ((Enclosed.params?_suffix enclosed).trans (Token.next_suffix _)).trans
            (Token.next_suffix text)
          split at read
          · cases read
          · split at read
            · cases read
            · next body after inside =>
                cases read
                exact ((Enclosed.body?_suffix inside).trans (Token.next_suffix behind)).trans header

/-- A step that reading goes on from takes its first token and leaves a suffix of what is
behind that. -/
theorem readStep_suffix {hasMain : Bool} {text rest : Text}
    (more : (readStep hasMain text).rest? = some rest) :
    (Token.next text).1 ≠ [] ∧ rest <:+ (Token.next text).2 := by
  simp only [readStep] at more
  split at more
  · cases more
  · next found =>
      refine ⟨found, ?_⟩
      split at more
      · split at more
        · next read =>
            cases more
            exact readDeclaration_suffix read
        · cases more
      · split at more
        · cases more
          exact List.suffix_rfl
        · split at more
          · split at more
            · next read =>
                cases more
                exact skipStatement_suffix read
            · cases more
          · split at more
            · next read =>
                split at more
                · cases more
                · cases more
                  exact readFunction_suffix read
            · cases more

/-- A step that reading goes on from leaves less to read. -/
theorem readStep_length {hasMain : Bool} {text rest : Text}
    (more : (readStep hasMain text).rest? = some rest) : rest.length < text.length :=
  have ⟨found, suffix⟩ := readStep_suffix more
  Nat.lt_of_le_of_lt suffix.length_le (Token.next_length text found)

/-! ### Whole programs -/

/-- What reading a text comes to: the items read, the text that was not looked at, and the
fault that stopped the reading, if one did. -/
structure Reading where
  items : List Item
  rest : Text
  fault : Option Fault
deriving DecidableEq, Repr

/-- Put an item before those of a reading. -/
def Reading.cons (item : Item) (reading : Reading) : Reading :=
  { reading with items := item :: reading.items }

/-- Read items until the text ends or a fault shows. -/
def readItems (hasMain : Bool) (text : Text) : Reading :=
  match _step : readStep hasMain text with
  | .finished => ⟨[], [], none⟩
  | .skipped rest => readItems hasMain rest
  | .item item rest => (readItems (hasMain || item.isMain) rest).cons item
  | .failed fault rest => ⟨[], rest, some fault⟩
termination_by text.length
decreasing_by
  all_goals exact readStep_length (by rw [_step]; rfl)

/-- Read a whole text. -/
def read (text : Text) : Reading :=
  readItems false text

/-- The program that was read, or the fault. -/
def Reading.program (reading : Reading) : Except Fault Program :=
  match reading.fault with
  | none => .ok (ofItems reading.items)
  | some fault => .error fault

/-- The program that a text states. -/
def parse (text : Text) : Except Fault Program :=
  (read text).program

end CrossShade.Program
