import CrossShade.Program.Reader
import CrossShade.Proofs.Balance
import CrossShade.Proofs.TokenRow

/-!
The grammar of program texts, and the proof that reading follows it. A text is a sequence of
phrases with blanks around them: declarations, functions, precision statements and stray
semicolons. `Phrase` says of a text that it is one phrase and which item it states, `Sequence`
does so for a whole text.

* `readStep_append_of_phrase`, `readStep_takes`: one step of reading takes exactly one phrase off
  the text.
* `readItems_append`: reading a sequence gives its items and goes on behind it.
* `parse_eq_ok_iff`: the reader accepts exactly the texts of the grammar with at most one entry
  point, and gives the program that lists their items.
-/

namespace CrossShade.Qualifier

instance {p : Qualifier → Prop} [DecidablePred p] : Decidable (∀ qualifier, p qualifier) :=
  decidable_of_iff (p .attribute ∧ p .uniform ∧ p .varying)
    ⟨fun each qualifier =>
      match qualifier with
      | .attribute => each.1
      | .uniform => each.2.1
      | .varying => each.2.2,
    fun all => ⟨all _, all _, all _⟩⟩

theorem ofKeyword?_keyword (qualifier : Qualifier) :
    ofKeyword? qualifier.keyword = some qualifier := by
  cases qualifier <;> decide

theorem eq_keyword_of_ofKeyword? {token : Text} {qualifier : Qualifier}
    (found : ofKeyword? token = some qualifier) : token = qualifier.keyword := by
  have same := List.find?_some found
  exact (beq_iff_eq.mp same).symm

theorem ofKeyword?_eq_none_iff {token : Text} :
    ofKeyword? token = none ↔ ∀ qualifier : Qualifier, token ≠ qualifier.keyword := by
  constructor
  · rintro none qualifier rfl
    rw [ofKeyword?_keyword] at none
    cases none
  · intro differ
    cases found : ofKeyword? token with
    | none => rfl
    | some qualifier => exact absurd (eq_keyword_of_ofKeyword? found) (differ qualifier)

end CrossShade.Qualifier

namespace CrossShade.Program

open CrossShade.Token CrossShade.Enclosed

/-! ### Phrases -/

/-- A text that is one phrase of a program, and the item it states. Each phrase ends in a
delimiter, so what follows cannot change it. -/
inductive Phrase : Option Item → Text → Prop where
  | stray {gap : Text} (blank : Text.AllBlank gap) : Phrase none (gap ++ [';'])
  | precision {row : Text} {tokens : List Text} (spelled : Spells (precisionKeyword :: tokens) row)
      (first : [';'] ∉ tokens) : Phrase none (row ++ [';'])
  | declaration {row type name : Text} {qualifier : Qualifier}
      (spelled : Spells [qualifier.keyword, type, name] row)
      (typeWord : isWord type = true) (nameWord : isWord name = true) :
      Phrase (some (.declaration qualifier ⟨type, name⟩)) (row ++ [';'])
  | function {header params gap body returnType name : Text}
      (spelled : Spells [returnType, name] header)
      (noQualifier : ∀ qualifier : Qualifier, returnType ≠ qualifier.keyword)
      (noStray : returnType ≠ [';']) (noPrecision : returnType ≠ precisionKeyword)
      (paramsBalance : Balanced '(' ')' params) (blank : Text.AllBlank gap)
      (bodyBalance : Balanced '{' '}' body) :
      Phrase (some (.function ⟨name, returnType, Text.trimStart params, Text.trim body⟩))
        (header ++ '(' :: (params ++ ')' :: (gap ++ '{' :: (body ++ ['}']))))

/-- A text that is a sequence of phrases, and the items they state. -/
inductive Sequence : List Item → Text → Prop where
  | blanks {gap : Text} (blank : Text.AllBlank gap) : Sequence [] gap
  | phrase {item : Option Item} {items : List Item} {text rest : Text} (first : Phrase item text)
      (others : Sequence items rest) : Sequence (item.toList ++ items) (text ++ rest)

/-- Every item of a sequence is stated by a phrase within the text. -/
theorem Sequence.exists_phrase {item : Item} {items : List Item} {text : Text}
    (sequence : Sequence items text) (mem : item ∈ items) :
    ∃ part, Phrase (some item) part ∧ part <:+: text := by
  induction sequence with
  | blanks => exact absurd mem List.not_mem_nil
  | @phrase stated items front rest phrase _ ih =>
      rcases List.mem_append.mp mem with here | later
      · obtain rfl := Option.mem_toList.mp here
        exact ⟨front, phrase, (List.prefix_append front rest).isInfix⟩
      · obtain ⟨part, phrase, within⟩ := ih later
        exact ⟨part, phrase, within.trans (List.suffix_append front rest).isInfix⟩

/-! ### Parts of phrases -/

theorem readDeclaration_eq_done_iff {qualifier : Qualifier} {text rest : Text}
    {declaration : Declaration} :
    readDeclaration qualifier text = .done declaration rest ↔
      ∃ row, Spells [declaration.type, declaration.name] row ∧
        isWord declaration.type = true ∧ isWord declaration.name = true ∧
        text = row ++ ';' :: rest := by
  constructor
  · intro read
    simp only [readDeclaration] at read
    split at read
    · cases read
    · next typeWord =>
        split at read
        · cases read
        · next nameWord =>
            split at read
            · cases read
            · next stop =>
                cases read
                simp only [Bool.not_eq_true', Bool.not_eq_false] at typeWord nameWord
                obtain ⟨gap, blank, left⟩ := (next_eq_mark_iff (by decide) (by decide)).mp
                  (Prod.ext (not_not.mp stop) rfl)
                have nonempty : ∀ {token : Text}, isWord token = true → token ≠ [] := by
                  rintro token word rfl
                  cases word
                obtain ⟨later, spelledName, left⟩ :=
                  exists_spelling_of_next (nonempty nameWord) (.blanks blank) left
                obtain ⟨row, spelled, whole⟩ :=
                  exists_spelling_of_next (nonempty typeWord) spelledName left
                exact ⟨row, spelled, typeWord, nameWord, whole⟩
  · rintro ⟨row, spelled, typeWord, nameWord, rfl⟩
    have stop : EndsWord (';' :: rest) := endsWord_cons (by decide)
    obtain ⟨later, spelledName, readType⟩ := spelled.next stop
    obtain ⟨last, spelledNone, readName⟩ := spelledName.next stop
    have readStop := spelledNone.next_mark (c := ';') (by decide) (by decide) rest
    simp [readDeclaration, readType, readName, readStop, typeWord, nameWord]

theorem skipStatement_eq_done_iff {text rest : Text} :
    skipStatement text = .done () rest ↔
      ∃ row tokens, Spells tokens row ∧ [';'] ∉ tokens ∧ text = row ++ ';' :: rest := by
  constructor
  · intro read
    induction text using skipStatement.induct with
    | case1 text atEnd =>
        rw [skipStatement] at read
        simp [atEnd] at read
    | case2 text atEnd atStop =>
        rw [skipStatement] at read
        simp only [atStop, ↓reduceIte] at read
        cases read
        obtain ⟨gap, blank, whole⟩ := (next_eq_mark_iff (by decide) (by decide)).mp
          (Prod.ext atStop rfl)
        exact ⟨gap, [], .blanks blank, List.not_mem_nil, whole⟩
    | case3 text atEnd atStop ih =>
        rw [skipStatement] at read
        simp only [atEnd, atStop, ↓reduceDIte, ↓reduceIte] at read
        obtain ⟨row, tokens, spelled, first, left⟩ := ih read
        obtain ⟨front, spelled, whole⟩ := exists_spelling_of_next atEnd spelled left
        refine ⟨front, _, spelled, ?_, whole⟩
        intro mem
        rcases List.mem_cons.mp mem with eq | mem
        · exact atStop eq.symm
        · exact first mem
  · rintro ⟨row, tokens, spelled, first, rfl⟩
    have stop : EndsWord (';' :: rest) := endsWord_cons (by decide)
    induction tokens generalizing row with
    | nil =>
        rw [skipStatement, spelled.next_mark (by decide) (by decide)]
        simp
    | cons token tokens ih =>
        obtain ⟨later, spelledLater, read⟩ := spelled.next stop
        have nonempty : token ≠ [] := spelled.nonempty List.mem_cons_self
        have other : token ≠ [';'] := fun eq => first (eq ▸ List.mem_cons_self)
        rw [skipStatement, read]
        simp only [nonempty, other, ↓reduceDIte, ↓reduceIte]
        exact ih later spelledLater fun mem => first (List.mem_cons_of_mem _ mem)

theorem readFunction_eq_done_iff {returnType text rest : Text} {function : Function} :
    readFunction returnType text = .done function rest ↔
      ∃ header params gap body, Spells [function.name] header ∧ Balanced '(' ')' params ∧
        Text.AllBlank gap ∧ Balanced '{' '}' body ∧
        text = header ++ '(' :: (params ++ ')' :: (gap ++ '{' :: (body ++ '}' :: rest))) ∧
        function = ⟨function.name, returnType, Text.trimStart params, Text.trim body⟩ := by
  constructor
  · intro read
    simp only [readFunction] at read
    split at read
    · cases read
    · next named =>
        split at read
        · cases read
        · next paren =>
            split at read
            · cases read
            · next params behind enclosed =>
                split at read
                · cases read
                · next brace =>
                    split at read
                    · cases read
                    · next body after inside =>
                        cases read
                        obtain ⟨rawBody, leftBody, bodyBalance, rfl⟩ :=
                          body?_eq_some_iff.mp inside
                        obtain ⟨gap, blank, leftBrace⟩ :=
                          (next_eq_mark_iff (by decide) (by decide)).mp
                            (Prod.ext (not_not.mp brace) leftBody)
                        obtain ⟨rawParams, leftParams, paramsBalance, rfl⟩ :=
                          params?_eq_some_iff.mp enclosed
                        obtain ⟨before, blankBefore, leftParen⟩ :=
                          (next_eq_mark_iff (by decide) (by decide)).mp
                            (Prod.ext (not_not.mp paren) leftParams)
                        obtain ⟨header, spelled, whole⟩ :=
                          exists_spelling_of_next named (.blanks blankBefore) leftParen
                        refine ⟨header, rawParams, gap, rawBody, spelled, paramsBalance, blank,
                          bodyBalance, ?_, rfl⟩
                        rw [whole, leftBrace]
  · rintro ⟨header, params, gap, body, spelled, paramsBalance, blank, bodyBalance, rfl, eq⟩
    have nonempty : function.name ≠ [] := spelled.nonempty List.mem_cons_self
    have stop : EndsWord ('(' :: (params ++ ')' :: (gap ++ '{' :: (body ++ '}' :: rest)))) :=
      endsWord_cons (by decide)
    obtain ⟨later, spelledNone, readName⟩ := spelled.next stop
    have readParen := spelledNone.next_mark (c := '(') (by decide) (by decide)
      (params ++ ')' :: (gap ++ '{' :: (body ++ '}' :: rest)))
    have readParams := params?_eq_some_iff.mpr
      ⟨params, (rfl : params ++ ')' :: (gap ++ '{' :: (body ++ '}' :: rest)) = _),
        paramsBalance, rfl⟩
    have readBrace := next_mark (c := '{') blank (by decide) (by decide) (body ++ '}' :: rest)
    have readBody := body?_eq_some_iff.mpr
      ⟨body, (rfl : body ++ '}' :: rest = _), bodyBalance, rfl⟩
    rw [eq]
    simp [readFunction, readName, readParen, readParams, readBrace, readBody, nonempty]

/-! ### One step of reading -/

/-- What a step comes to at a phrase: a phrase that states nothing is passed over, and a second
entry point is a fault. -/
def Step.ofPhrase (hasMain : Bool) (item : Option Item) (rest : Text) : Step :=
  match item with
  | none => .skipped rest
  | some item => if item.isMain && hasMain then .failed .duplicateMain rest else .item item rest

/-- **A step takes the phrase that the text begins with**, whatever stands behind it. -/
theorem readStep_append_of_phrase (hasMain : Bool) {item : Option Item} {text : Text}
    (phrase : Phrase item text) (rest : Text) :
    readStep hasMain (text ++ rest) = Step.ofPhrase hasMain item rest := by
  cases phrase with
  | @stray gap blank =>
      have read := next_mark (c := ';') blank (by decide) (by decide) rest
      have noKeyword : Qualifier.ofKeyword? [';'] = none := by decide
      simp [readStep, read, noKeyword, Step.ofPhrase]
  | @precision row tokens spelled first =>
      have stop : EndsWord (';' :: rest) := endsWord_cons (by decide)
      obtain ⟨later, spelledLater, read⟩ := spelled.next stop
      have skips : skipStatement (later ++ ';' :: rest) = .done () rest :=
        skipStatement_eq_done_iff.mpr ⟨later, tokens, spelledLater, first, rfl⟩
      have noKeyword : Qualifier.ofKeyword? precisionKeyword = none := by decide
      have notEmpty : precisionKeyword ≠ [] := by decide
      have noStray : precisionKeyword ≠ [';'] := by decide
      simp [readStep, read, skips, noKeyword, notEmpty, noStray, Step.ofPhrase]
  | @declaration row type name qualifier spelled typeWord nameWord =>
      have stop : EndsWord (';' :: rest) := endsWord_cons (by decide)
      obtain ⟨later, spelledLater, read⟩ := spelled.next stop
      have declares : readDeclaration qualifier (later ++ ';' :: rest) = .done ⟨type, name⟩ rest :=
        readDeclaration_eq_done_iff.mpr ⟨later, spelledLater, typeWord, nameWord, rfl⟩
      have notEmpty : qualifier.keyword ≠ [] := spelled.nonempty List.mem_cons_self
      simp [readStep, read, declares, Qualifier.ofKeyword?_keyword, notEmpty, Step.ofPhrase,
        Item.isMain]
  | @function header params gap body returnType name spelled noQualifier noStray noPrecision
      paramsBalance blank bodyBalance =>
      have stop : EndsWord ('(' :: (params ++ ')' :: (gap ++ '{' :: (body ++ '}' :: rest)))) :=
        endsWord_cons (by decide)
      obtain ⟨later, spelledLater, read⟩ := spelled.next stop
      have defines : readFunction returnType
          (later ++ '(' :: (params ++ ')' :: (gap ++ '{' :: (body ++ '}' :: rest)))) =
          .done ⟨name, returnType, Text.trimStart params, Text.trim body⟩ rest :=
        readFunction_eq_done_iff.mpr
          ⟨later, params, gap, body, spelledLater, paramsBalance, blank, bodyBalance, rfl, rfl⟩
      have noKeyword := Qualifier.ofKeyword?_eq_none_iff.mpr noQualifier
      have notEmpty : returnType ≠ [] := spelled.nonempty List.mem_cons_self
      simp [readStep, read, defines, noKeyword, notEmpty, noStray, noPrecision, Step.ofPhrase,
        Item.isMain]

/-- A function that was read is a phrase, if its return type starts no other one. -/
theorem exists_phrase_of_readFunction {text rest : Text} {function : Function}
    (found : (Token.next text).1 ≠ [])
    (noQualifier : ∀ qualifier : Qualifier, (Token.next text).1 ≠ qualifier.keyword)
    (noStray : (Token.next text).1 ≠ [';']) (noPrecision : (Token.next text).1 ≠ precisionKeyword)
    (read : readFunction (Token.next text).1 (Token.next text).2 = .done function rest) :
    ∃ front, Phrase (some (.function function)) front ∧ text = front ++ rest := by
  obtain ⟨later, params, gap, body, spelled, paramsBalance, blank, bodyBalance, left, eq⟩ :=
    readFunction_eq_done_iff.mp read
  obtain ⟨header, spelled, whole⟩ := exists_spelling_of_next found spelled left
  rw [eq]
  exact ⟨_, .function spelled noQualifier noStray noPrecision paramsBalance blank bodyBalance,
    by simpa using whole⟩

/-- What a step without a fault has taken off the text: the last blanks, or one phrase. -/
def Step.Takes (text : Text) : Step → Prop
  | .finished => Text.AllBlank text
  | .skipped rest => ∃ front, Phrase none front ∧ text = front ++ rest
  | .item stated rest => ∃ front, Phrase (some stated) front ∧ text = front ++ rest
  | .failed _ _ => True

/-- **A step that is no fault takes a phrase off the text**, or finds nothing but blanks. -/
theorem readStep_takes (hasMain : Bool) (text : Text) : (readStep hasMain text).Takes text := by
  simp only [readStep]
  split
  · next atEnd => exact next_eq_nil_iff.mp atEnd
  · next found =>
      cases keyword : Qualifier.ofKeyword? (Token.next text).1 with
      | some qualifier =>
          simp only
          cases read : readDeclaration qualifier (Token.next text).2 with
          | failed fault rest => trivial
          | done declaration rest =>
              obtain ⟨row, spelled, typeWord, nameWord, left⟩ := readDeclaration_eq_done_iff.mp read
              obtain ⟨front, spelled, whole⟩ := exists_spelling_of_next found spelled left
              rw [Qualifier.eq_keyword_of_ofKeyword? keyword] at spelled
              exact ⟨front ++ [';'], .declaration spelled typeWord nameWord, by simpa using whole⟩
      | none =>
          simp only
          split
          · next stray =>
              obtain ⟨gap, blank, whole⟩ := (next_eq_mark_iff (by decide) (by decide)).mp
                (Prod.ext stray rfl)
              exact ⟨gap ++ [';'], .stray blank, by simpa using whole⟩
          · next noStray =>
              split
              · next isPrecision =>
                  cases read : skipStatement (Token.next text).2 with
                  | failed fault rest => trivial
                  | done _ rest =>
                      obtain ⟨row, tokens, spelled, first, left⟩ :=
                        skipStatement_eq_done_iff.mp read
                      obtain ⟨front, spelled, whole⟩ := exists_spelling_of_next found spelled left
                      rw [isPrecision] at spelled
                      exact ⟨front ++ [';'], .precision spelled first, by simpa using whole⟩
              · next noPrecision =>
                  cases read : readFunction (Token.next text).1 (Token.next text).2 with
                  | failed fault rest => trivial
                  | done function rest =>
                      simp only
                      split
                      · trivial
                      · exact exists_phrase_of_readFunction found
                          (Qualifier.ofKeyword?_eq_none_iff.mp keyword) noStray noPrecision read

/-- An item is read from its phrase, and it is no second entry point. -/
theorem exists_phrase_of_readStep {hasMain : Bool} {item : Item} {text rest : Text}
    (step : readStep hasMain text = .item item rest) :
    (item.isMain && hasMain) = false ∧
      ∃ front, Phrase (some item) front ∧ text = front ++ rest := by
  have takes := readStep_takes hasMain text
  rw [step] at takes
  obtain ⟨front, phrase, rfl⟩ := takes
  refine ⟨?_, front, phrase, rfl⟩
  have again := readStep_append_of_phrase hasMain phrase rest
  rw [step, Step.ofPhrase] at again
  split at again
  · cases again
  · next single => simpa using single

/-! ### Whole texts -/

section Equations

variable {hasMain : Bool} {text : Text}

theorem readItems_of_finished (step : readStep hasMain text = .finished) :
    readItems hasMain text = ⟨[], [], none⟩ := by
  rw [readItems]
  split <;> simp_all

theorem readItems_of_skipped {rest : Text} (step : readStep hasMain text = .skipped rest) :
    readItems hasMain text = readItems hasMain rest := by
  rw [readItems]
  split <;> simp_all

theorem readItems_of_item {item : Item} {rest : Text}
    (step : readStep hasMain text = .item item rest) :
    readItems hasMain text = (readItems (hasMain || item.isMain) rest).cons item := by
  rw [readItems]
  split <;> simp_all

theorem readItems_of_failed {fault : Fault} {rest : Text}
    (step : readStep hasMain text = .failed fault rest) :
    readItems hasMain text = ⟨[], rest, some fault⟩ := by
  rw [readItems]
  split <;> simp_all

theorem readItems_congr {other : Text} (same : readStep hasMain text = readStep hasMain other) :
    readItems hasMain text = readItems hasMain other := by
  cases step : readStep hasMain other with
  | finished => rw [readItems_of_finished (same.trans step), readItems_of_finished step]
  | skipped rest => rw [readItems_of_skipped (same.trans step), readItems_of_skipped step]
  | item item rest => rw [readItems_of_item (same.trans step), readItems_of_item step]
  | failed fault rest => rw [readItems_of_failed (same.trans step), readItems_of_failed step]

end Equations

/-- Put items before those of a reading. -/
def Reading.prepend (items : List Item) (reading : Reading) : Reading :=
  { reading with items := items ++ reading.items }

/-- The items hold at most one entry point, and none where there is one already. -/
def Fits (hasMain : Bool) (items : List Item) : Prop :=
  (if hasMain then 1 else 0) + items.countP Item.isMain ≤ 1

theorem fits_cons {hasMain : Bool} {item : Item} {items : List Item} :
    Fits hasMain (item :: items) ↔
      (item.isMain && hasMain) = false ∧ Fits (hasMain || item.isMain) items := by
  simp only [Fits, List.countP_cons]
  grind

/-- Reading goes on behind blanks as if they were not there. -/
theorem readItems_append_of_allBlank {hasMain : Bool} {gap : Text} (blank : Text.AllBlank gap)
    (rest : Text) : readItems hasMain (gap ++ rest) = readItems hasMain rest :=
  readItems_congr (by simp only [readStep, next_append_of_allBlank blank])

/-- **Reading a sequence** gives its items and goes on behind it, as long as the entry points
fit. -/
theorem readItems_append {items : List Item} {text : Text} (sequence : Sequence items text)
    {hasMain : Bool} (fits : Fits hasMain items) (rest : Text) :
    readItems hasMain (text ++ rest) =
      (readItems (hasMain || items.any Item.isMain) rest).prepend items := by
  induction sequence generalizing hasMain with
  | blanks blank =>
      rw [readItems_append_of_allBlank blank]
      simp [Reading.prepend]
  | @phrase item items front later phrase _ ih =>
      have step := readStep_append_of_phrase hasMain phrase (later ++ rest)
      rw [List.append_assoc]
      cases item with
      | none =>
          rw [readItems_of_skipped step, ih fits]
          rfl
      | some item =>
          obtain ⟨single, fits⟩ := fits_cons.mp fits
          simp only [Step.ofPhrase, single] at step
          rw [readItems_of_item step, ih fits]
          simp [Reading.cons, Reading.prepend, Bool.or_assoc]

/-- **What was read without a fault is a sequence** of the items read, whose entry points
fit. -/
theorem sequence_of_readItems {hasMain : Bool} {text : Text}
    (sound : (readItems hasMain text).fault = none) :
    Sequence (readItems hasMain text).items text ∧ Fits hasMain (readItems hasMain text).items := by
  induction hasMain, text using readItems.induct with
  | case1 hasMain text step =>
      have takes := readStep_takes hasMain text
      rw [step] at takes
      rw [readItems_of_finished step]
      refine ⟨.blanks takes, ?_⟩
      cases hasMain <;> simp [Fits]
  | case2 hasMain text rest step ih =>
      rw [readItems_of_skipped step] at sound ⊢
      have takes := readStep_takes hasMain text
      rw [step] at takes
      obtain ⟨front, phrase, rfl⟩ := takes
      obtain ⟨sequence, fits⟩ := ih sound
      exact ⟨.phrase phrase sequence, fits⟩
  | case3 hasMain text item rest step ih =>
      rw [readItems_of_item step] at sound ⊢
      obtain ⟨single, front, phrase, rfl⟩ := exists_phrase_of_readStep step
      obtain ⟨sequence, fits⟩ := ih sound
      exact ⟨.phrase phrase sequence, fits_cons.mpr ⟨single, fits⟩⟩
  | case4 hasMain text fault rest step =>
      rw [readItems_of_failed step] at sound
      cases sound

/-! ### Programs and their items -/

/-- The declarations of one category. -/
def declarations (program : Program) : Qualifier → List Declaration
  | .attribute => program.attributes
  | .uniform => program.uniforms
  | .varying => program.varyings

end CrossShade.Program

namespace CrossShade.Item

/-- The declaration that the item states, if it is of the category. -/
def declared? (qualifier : Qualifier) : Item → Option Declaration
  | .declaration category stated => if category = qualifier then some stated else none
  | .function _ => none

/-- The function that the item defines. -/
def defined? : Item → Option Function
  | .declaration _ _ => none
  | .function definition => some definition

end CrossShade.Item

namespace CrossShade.Program

/-- The program holds every declaration of the items in its own category, and their functions,
each in the order of the items. -/
structure Lists (program : Program) (items : List Item) : Prop where
  declarations : ∀ qualifier,
    program.declarations qualifier = items.filterMap (Item.declared? qualifier)
  functions : program.functions = items.filterMap Item.defined?

theorem Lists.mem_declarations_iff {program : Program} {items : List Item} {qualifier : Qualifier}
    {declaration : Declaration} (lists : program.Lists items) :
    declaration ∈ program.declarations qualifier ↔ .declaration qualifier declaration ∈ items := by
  rw [lists.declarations, List.mem_filterMap]
  constructor
  · rintro ⟨item, listed, declared⟩
    cases item with
    | function => cases declared
    | declaration category stated =>
        obtain ⟨rfl, rfl⟩ : category = qualifier ∧ stated = declaration := by
          simpa [Item.declared?] using declared
        exact listed
  · intro listed
    exact ⟨_, listed, by simp [Item.declared?]⟩

theorem Lists.mem_functions_iff {program : Program} {items : List Item} {function : Function}
    (lists : program.Lists items) : function ∈ program.functions ↔ .function function ∈ items := by
  rw [lists.functions, List.mem_filterMap]
  constructor
  · rintro ⟨item, listed, defined⟩
    cases item with
    | declaration => cases defined
    | function => cases defined; exact listed
  · intro listed
    exact ⟨_, listed, rfl⟩

theorem Lists.unique {first second : Program} {items : List Item} (one : first.Lists items)
    (other : second.Lists items) : first = second := by
  have same : ∀ qualifier, first.declarations qualifier = second.declarations qualifier :=
    fun qualifier => (one.declarations qualifier).trans (other.declarations qualifier).symm
  cases first
  cases second
  have functions := one.functions.trans other.functions.symm
  simp only at functions
  simp only [Program.mk.injEq]
  exact ⟨same .attribute, same .uniform, same .varying, functions⟩

theorem Lists.add {program : Program} {items : List Item} (lists : program.Lists items)
    (item : Item) : (program.add item).Lists (items ++ [item]) := by
  refine ⟨fun qualifier => ?_, ?_⟩
  · have before := lists.declarations qualifier
    rw [List.filterMap_append, ← before]
    rcases item with ⟨category, declaration⟩ | function
    · cases category <;> cases qualifier <;>
        simp [Program.add, Program.declarations, Item.declared?]
    · cases qualifier <;> simp [Program.add, Program.declarations, Item.declared?]
  · have before := lists.functions
    rw [List.filterMap_append, ← before]
    rcases item with ⟨category, declaration⟩ | function
    · cases category <;> simp [Program.add, Item.defined?]
    · simp [Program.add, Item.defined?]

theorem ofItems_lists (items : List Item) : (ofItems items).Lists items := by
  have empty : Program.Lists {} [] := ⟨fun qualifier => by cases qualifier <;> rfl, rfl⟩
  have run : ∀ (later before : List Item) (program : Program), program.Lists before →
      (later.foldl add program).Lists (before ++ later) := by
    intro later
    induction later with
    | nil =>
        intro before program lists
        simpa using lists
    | cons item later ih =>
        intro before program lists
        simpa using ih (before ++ [item]) (program.add item) (lists.add item)
  exact run items [] {} empty

/-- The entry points among the functions are those among the items. -/
theorem Lists.countP_isMain {program : Program} {items : List Item} (lists : program.Lists items) :
    program.functions.countP Function.isMain = items.countP Item.isMain := by
  rw [lists.functions, List.countP_filterMap]
  refine List.countP_congr fun item _ => ?_
  cases item <;> simp [Item.defined?, Item.isMain]

/-! ### The grammar as a whole -/

/-- The text states the program: it is a sequence of phrases whose items the program lists, and
at most one of its functions is an entry point. -/
def States (text : Text) (program : Program) : Prop :=
  ∃ items, Sequence items text ∧ program.Lists items ∧
    program.functions.countP Function.isMain ≤ 1

theorem read_sound_iff {text : Text} {items : List Item} :
    (read text).fault = none ∧ (read text).items = items ↔
      Sequence items text ∧ items.countP Item.isMain ≤ 1 := by
  constructor
  · rintro ⟨sound, rfl⟩
    obtain ⟨sequence, fits⟩ := sequence_of_readItems sound
    exact ⟨sequence, by simpa [Fits, read] using fits⟩
  · rintro ⟨sequence, atMost⟩
    have fits : Fits false items := by simpa [Fits] using atMost
    have whole := readItems_append sequence fits []
    have atEnd : readItems (false || items.any Item.isMain) [] = ⟨[], [], none⟩ :=
      readItems_of_finished rfl
    rw [List.append_nil, atEnd] at whole
    simp [read, whole, Reading.prepend]

/-- A text that states a program is read as that program. -/
theorem States.parse_eq_ok {text : Text} {program : Program} (states : States text program) :
    parse text = .ok program := by
  obtain ⟨items, sequence, lists, atMost⟩ := states
  rw [lists.countP_isMain] at atMost
  obtain ⟨sound, rfl⟩ := read_sound_iff.mpr ⟨sequence, atMost⟩
  simp only [parse, Reading.program, sound, Except.ok.injEq]
  exact (ofItems_lists _).unique lists

/-- A text that is read as a program states it. -/
theorem states_of_parse_eq_ok {text : Text} {program : Program}
    (parsed : parse text = .ok program) : States text program := by
  cases sound : (read text).fault with
  | some fault => simp [parse, Reading.program, sound] at parsed
  | none =>
      simp only [parse, Reading.program, sound, Except.ok.injEq] at parsed
      obtain ⟨sequence, atMost⟩ := read_sound_iff.mp ⟨sound, rfl⟩
      have lists := ofItems_lists (read text).items
      rw [parsed] at lists
      exact ⟨_, sequence, lists, lists.countP_isMain ▸ atMost⟩

/-- **The reader accepts exactly its grammar.** A text is read as a program if and only if the
text states that program. -/
theorem parse_eq_ok_iff (text : Text) (program : Program) :
    parse text = .ok program ↔ States text program :=
  ⟨states_of_parse_eq_ok, States.parse_eq_ok⟩

end CrossShade.Program
