import CrossShade.Proofs.Grammar

/-!
Texts one after another. A text that was read to its end leaves nothing open, so a second text
behind it is read as if it stood alone; only the entry points of the two meet. Their programs
are put together category by category (`parse_append`).
-/

namespace CrossShade.Program

/-- One program after another, category by category. -/
def append (first second : Program) : Program where
  attributes := first.attributes ++ second.attributes
  uniforms := first.uniforms ++ second.uniforms
  varyings := first.varyings ++ second.varyings
  functions := first.functions ++ second.functions

instance : Append Program := ⟨append⟩

/-- Whether the program has an entry point. -/
def hasMain (program : Program) : Bool :=
  program.functions.any Function.isMain

/-! ### Programs of items in a row -/

theorem Lists.append {first second : Program} {before behind : List Item}
    (one : first.Lists before) (other : second.Lists behind) :
    (first ++ second).Lists (before ++ behind) := by
  refine ⟨fun qualifier => ?_, ?_⟩
  · rw [List.filterMap_append, ← one.declarations, ← other.declarations]
    cases qualifier <;> rfl
  · rw [List.filterMap_append, ← one.functions, ← other.functions]
    rfl

theorem ofItems_append (before behind : List Item) :
    ofItems (before ++ behind) = ofItems before ++ ofItems behind :=
  (ofItems_lists _).unique ((ofItems_lists before).append (ofItems_lists behind))

theorem hasMain_ofItems (items : List Item) : (ofItems items).hasMain = items.any Item.isMain := by
  rw [hasMain, (ofItems_lists items).functions, List.any_filterMap]
  congr 1
  funext item
  cases item <;> simp [Item.defined?, Item.isMain]

/-! ### Reading where an entry point is known -/

/-- One step under a known entry point differs only at another one, which is a fault. -/
theorem readStep_true (text : Text) :
    readStep true text =
      match readStep false text with
      | .item item rest => if item.isMain then .failed .duplicateMain rest else .item item rest
      | step => step := by
  simp only [readStep]
  split
  · rfl
  · cases Qualifier.ofKeyword? (Token.next text).1 with
    | some qualifier =>
        simp only
        cases readDeclaration qualifier (Token.next text).2 <;> simp [Item.isMain]
    | none =>
        simp only
        split
        · rfl
        · split
          · cases skipStatement (Token.next text).2 <;> rfl
          · cases readFunction (Token.next text).1 (Token.next text).2 with
            | failed fault rest => rfl
            | done function rest => cases main : function.isMain <;> simp [Item.isMain, main]

/-- **A known entry point makes no difference up to the next one**, which is then a fault. -/
theorem readItems_true (text : Text) :
    if (readItems false text).items.any Item.isMain then
      (readItems true text).fault = some .duplicateMain
    else readItems true text = readItems false text := by
  induction text using (measure List.length).wf.induction with
  | h text ih =>
      have known := readStep_true text
      cases step : readStep false text with
      | finished =>
          rw [step] at known
          rw [readItems_of_finished step, readItems_of_finished known]
          simp
      | failed fault rest =>
          rw [step] at known
          rw [readItems_of_failed step, readItems_of_failed known]
          simp
      | skipped rest =>
          rw [step] at known
          rw [readItems_of_skipped step, readItems_of_skipped known]
          exact ih rest (readStep_length (by rw [step]; rfl))
      | item item rest =>
          rw [step] at known
          rw [readItems_of_item step]
          cases main : item.isMain with
          | true =>
              simp only [main, ↓reduceIte] at known
              rw [readItems_of_failed known]
              simp [Reading.cons, main]
          | false =>
              simp only [main, Bool.false_eq_true, ↓reduceIte] at known
              rw [readItems_of_item known]
              have later := ih rest (readStep_length (by rw [step]; rfl))
              simp only [Bool.or_false, Bool.false_or, main, Reading.cons, List.any_cons]
                at later ⊢
              split
              · next again =>
                  rw [if_pos again] at later
                  exact later
              · next none =>
                  rw [if_neg none] at later
                  rw [later]

/-! ### What is complete before a fault -/

/-- Some front of the text is a sequence of whole phrases that define an entry point. -/
def CompletesMain (text : Text) : Prop :=
  ∃ front rest items, text = front ++ rest ∧ Sequence items front ∧ items.any Item.isMain = true

/-- What was read, with or without a fault behind it, is stated by a front of the text. -/
theorem exists_sequence_of_readItems (hasMain : Bool) (text : Text) :
    ∃ front rest, text = front ++ rest ∧ Sequence (readItems hasMain text).items front := by
  induction hasMain, text using readItems.induct with
  | case1 hasMain text step =>
      rw [readItems_of_finished step]
      exact ⟨[], text, rfl, .blanks Text.allBlank_nil⟩
  | case2 hasMain text rest step ih =>
      have takes := readStep_takes hasMain text
      rw [step] at takes
      obtain ⟨phraseText, phrase, rfl⟩ := takes
      obtain ⟨front, later, rfl, sequence⟩ := ih
      rw [readItems_of_skipped step]
      exact ⟨phraseText ++ front, later, by simp, .phrase phrase sequence⟩
  | case3 hasMain text item rest step ih =>
      have takes := readStep_takes hasMain text
      rw [step] at takes
      obtain ⟨phraseText, phrase, rfl⟩ := takes
      obtain ⟨front, later, rfl, sequence⟩ := ih
      rw [readItems_of_item step]
      exact ⟨phraseText ++ front, later, by simp, .phrase phrase sequence⟩
  | case4 hasMain text fault rest step =>
      rw [readItems_of_failed step]
      exact ⟨[], text, rfl, .blanks Text.allBlank_nil⟩

/-- An entry point that a front of the text defines is read, whatever comes behind it. -/
theorem any_isMain_readItems {items : List Item} {front : Text} (sequence : Sequence items front)
    (main : items.any Item.isMain = true) (rest : Text) :
    (readItems false (front ++ rest)).items.any Item.isMain = true := by
  induction sequence with
  | blanks => simp at main
  | @phrase item items text later phrase _ ih =>
      have step := readStep_append_of_phrase false phrase (later ++ rest)
      rw [List.append_assoc]
      cases item with
      | none =>
          rw [readItems_of_skipped step]
          exact ih main
      | some item =>
          simp only [Step.ofPhrase, Bool.and_false, Bool.false_eq_true, ↓reduceIte] at step
          rw [readItems_of_item step]
          cases first : item.isMain with
          | true => simp [Reading.cons, first]
          | false =>
              simp only [Option.toList_some, List.singleton_append, List.any_cons, first,
                Bool.false_or] at main
              simpa [Reading.cons, first] using ih main

theorem completesMain_iff {text : Text} :
    CompletesMain text ↔ (read text).items.any Item.isMain = true := by
  constructor
  · rintro ⟨front, rest, items, rfl, sequence, main⟩
    exact any_isMain_readItems sequence main rest
  · intro main
    obtain ⟨front, rest, whole, sequence⟩ := exists_sequence_of_readItems false text
    exact ⟨front, rest, _, whole, sequence, main⟩

instance (text : Text) : Decidable (CompletesMain text) :=
  decidable_of_iff _ completesMain_iff.symm

/-! ### The main statement -/

theorem parse_eq_ok {text : Text} {program : Program} (parsed : parse text = .ok program) :
    (read text).fault = none ∧ ofItems (read text).items = program := by
  cases sound : (read text).fault with
  | none =>
      simp only [parse, Reading.program, sound, Except.ok.injEq] at parsed
      exact ⟨rfl, parsed⟩
  | some fault => simp [parse, Reading.program, sound] at parsed

theorem parse_eq_error {text : Text} {fault : Fault} (failed : parse text = .error fault) :
    (read text).fault = some fault := by
  cases sound : (read text).fault with
  | none => simp [parse, Reading.program, sound] at failed
  | some other => simpa [parse, Reading.program, sound] using failed

/-- Behind a text that was read to its end, a second one is read as it is alone, unless both
have an entry point. -/
theorem parse_append_of_sound {first : Text} (sound : (read first).fault = none) (second : Text) :
    parse (first ++ second) =
      if (read first).items.any Item.isMain && (read second).items.any Item.isMain then
        .error .duplicateMain
      else ((read second).prepend (read first).items).program := by
  obtain ⟨sequence, fits⟩ := sequence_of_readItems sound
  have whole : read (first ++ second) =
      (readItems ((read first).items.any Item.isMain) second).prepend (read first).items :=
    readItems_append sequence fits second
  rw [parse, whole]
  cases known : (read first).items.any Item.isMain with
  | false => rfl
  | true =>
      have later := readItems_true second
      cases again : (read second).items.any Item.isMain with
      | true =>
          rw [read] at again
          rw [if_pos again] at later
          simp [Reading.program, Reading.prepend, later]
      | false =>
          rw [read] at again
          rw [if_neg (by simp [again])] at later
          simp [later, read]

/-- **Reading is compositional.** Behind a text that states a program, a second text is read as
if it stood alone and its program is put behind the first one; what it fails with alone, it
fails with there. The exception is a second entry point: where the first text has one, the
whole fails at the first one that the second text completes. -/
theorem parse_append (first second : Text) {program : Program}
    (parsed : parse first = .ok program) :
    (∀ other, parse second = .ok other →
      parse (first ++ second) =
        if program.hasMain ∧ other.hasMain then .error .duplicateMain
        else .ok (program ++ other)) ∧
    ∀ fault, parse second = .error fault →
      parse (first ++ second) =
        if program.hasMain ∧ CompletesMain second then .error .duplicateMain
        else .error fault := by
  obtain ⟨sound, rfl⟩ := parse_eq_ok parsed
  rw [parse_append_of_sound sound, hasMain_ofItems]
  constructor
  · intro other parsedToo
    obtain ⟨soundToo, rfl⟩ := parse_eq_ok parsedToo
    rw [hasMain_ofItems, ← ofItems_append]
    simp [Reading.program, Reading.prepend, soundToo]
  · intro fault failed
    simp only [completesMain_iff]
    simp [Reading.program, Reading.prepend, parse_eq_error failed]

/-- A text that goes wrong behind its own entry point goes wrong at that entry point already
when it stands behind another. -/
theorem parse_append_second_main :
    parse "uniform float4 c; void main()\x7b \x7d".toList =
        .ok { uniforms := [⟨"float4".toList, ['c']⟩],
              functions := [⟨"main".toList, "void".toList, [], []⟩] } ∧
      parse " void main()\x7b \x7d uniform x".toList =
        .error (.malformedDeclaration "uniform".toList "a name".toList []) ∧
      parse ("uniform float4 c; void main()\x7b \x7d".toList
          ++ " void main()\x7b \x7d uniform x".toList) = .error .duplicateMain := by
  have first : parse "uniform float4 c; void main()\x7b \x7d".toList =
      .ok { uniforms := [⟨"float4".toList, ['c']⟩],
            functions := [⟨"main".toList, "void".toList, [], []⟩] } := by decide +kernel
  have second : parse " void main()\x7b \x7d uniform x".toList =
      .error (.malformedDeclaration "uniform".toList "a name".toList []) := by decide +kernel
  refine ⟨first, second, ?_⟩
  rw [(parse_append _ _ first).2 _ second]
  decide +kernel

end CrossShade.Program
