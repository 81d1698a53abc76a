import CrossShade.Proofs.FoldedRow
import CrossShade.Proofs.Replacement
import CrossShade.Proofs.Written

/-!
The conversion of written sources. Substitution, comment stripping, folding and reading each act
on one clause after another, whatever the layout, so a source is converted as the program it
states is listed (`convert_render`).
-/

namespace CrossShade

open CrossShade.Substitution CrossShade.Comment CrossShade.Layout CrossShade.Token

/-! ### Substitution, clause by clause -/

theorem not_identifierChar_of_spacing {c : Char} (spacing : isSpacing c = true) :
    Text.isIdentifierChar c = false := by
  simp only [isSpacing, Bool.or_eq_true, beq_iff_eq] at spacing
  rcases spacing with ((rfl | rfl) | rfl) | rfl <;> decide

theorem Gap.separate (gap : Gap) : ∀ c ∈ gap.text, Text.isIdentifierChar c = false := by
  intro c mem
  exact not_identifierChar_of_spacing (gap.spacing c mem)

theorem Gap.neutral (gap : Gap) : ∀ c ∈ gap.text, Neutral c := by
  intro c mem
  exact neutral_of_spacing (gap.spacing c mem)

section Substituted

variable {table : Table} (lexical : table.IsLexical) (mode : Mode)

include lexical

/-- A word ends where layout begins. -/
theorem apply_append_break (word : Text) (gap : Break) (rest : Text) :
    table.apply mode (word ++ (gap.text ++ rest)) =
      table.apply mode word ++ (gap.text ++ table.apply mode rest) := by
  rw [Table.apply_append lexical mode word,
    Table.apply_append_of_separate lexical mode gap.separate]
  intro c first
  rw [List.head?_append_of_ne_nil _ gap.nonempty] at first
  exact gap.separate c (List.mem_of_mem_head? first)

/-- A word ends at a delimiter, with or without layout before it. -/
theorem apply_append_gap_cons (word : Text) (gap : Gap) {c : Char}
    (separate : Text.isIdentifierChar c = false) (rest : Text) :
    table.apply mode (word ++ (gap.text ++ c :: rest)) =
      table.apply mode word ++ (gap.text ++ c :: table.apply mode rest) := by
  by_cases nonempty : gap.text = []
  · rw [nonempty]
    exact Table.apply_append_cons lexical mode separate word rest
  · rw [apply_append_break lexical mode word ⟨gap, nonempty⟩,
      Table.apply_cons lexical mode separate]

/-- Words with layout before each of them, in front of something that ends a word. -/
theorem apply_append_spaced {tail changed : Text}
    (ends : ∀ word, table.apply mode (word ++ tail) = table.apply mode word ++ changed)
    (word : Text) (words : List (Break × Text)) :
    table.apply mode (word ++ (spaced id words ++ tail)) =
      table.apply mode word ++ (spaced (table.apply mode) words ++ changed) := by
  induction words generalizing word with
  | nil => exact ends word
  | cons entry words ih =>
      obtain ⟨before, next⟩ := entry
      simp only [spaced, List.flatMap_cons, List.append_assoc, id] at ih ⊢
      rw [apply_append_break lexical mode word before, ih]

/-- A clause is substituted by itself, whatever stands behind it. -/
theorem Clause.apply_rendered (clause : Clause) (later : Text) :
    table.apply mode (clause.rendered id ++ later) =
      clause.rendered (table.apply mode) ++ table.apply mode later := by
  cases clause with
  | declaration qualifier precisions beforeType type beforeName name beforeStop =>
      simp only [rendered, front, last, id, List.append_assoc, List.singleton_append]
      rw [apply_append_spaced lexical mode fun word => apply_append_break lexical mode word _ _,
        apply_append_break lexical mode, apply_append_gap_cons lexical mode _ _ (by decide)]
  | precision words beforeStop =>
      simp only [rendered, front, last, id, List.append_assoc, List.singleton_append]
      rw [apply_append_spaced lexical mode fun word =>
        apply_append_gap_cons lexical mode word _ (by decide) _]
  | stray => exact Table.apply_cons lexical mode (by decide) later
  | function returnType beforeName name beforeParams params beforeBody body =>
      simp only [rendered, front, last, id, List.append_assoc, List.cons_append, List.nil_append]
      rw [apply_append_break lexical mode, apply_append_gap_cons lexical mode _ _ (by decide),
        Table.apply_append_cons lexical mode (by decide),
        Table.apply_append_of_separate lexical mode beforeBody.separate,
        Table.apply_cons lexical mode (by decide), Table.apply_append_cons lexical mode (by decide)]

/-- **A source is substituted clause by clause.** -/
theorem Written.apply_render (source : Written) :
    table.apply mode source.render = source.rendered (table.apply mode) := by
  obtain ⟨clauses, trailing⟩ := source
  simp only [render, rendered]
  induction clauses with
  | nil =>
      have blank := Table.apply_append_of_separate lexical mode trailing.separate []
      simpa [Table.apply_nil] using blank
  | cons entry clauses ih =>
      obtain ⟨before, clause⟩ := entry
      simp only [List.flatMap_cons, List.append_assoc] at ih ⊢
      rw [Table.apply_append_of_separate lexical mode before.separate,
        clause.apply_rendered lexical mode, ih]

end Substituted

/-! ### What the standard table does to words -/

/-- The substitution deletes precisions, keeps the words that start statements, and makes of
other words nothing but letters of identifiers and spaces. -/
structure Respects (change : Text → Text) : Prop where
  keyword : ∀ qualifier : Qualifier, change qualifier.keyword = qualifier.keyword
  precisionKeyword : change Program.precisionKeyword = Program.precisionKeyword
  precision : ∀ precision : Precision, change precision.word = []
  word : ∀ word : Identifier, ∀ c ∈ change word.text, Text.isIdentifierChar c = true ∨ c = ' '

theorem glslToCg_isLexical : Table.glslToCg.IsLexical := by
  decide

theorem glslToCg_targets : ∀ entry ∈ Table.glslToCg.entries, ∀ c ∈ entry.target,
    Text.isIdentifierChar c = true ∨ c = ' ' := by
  decide

theorem glslToCg_respects (mode : Mode) : Respects (Table.glslToCg.apply mode) where
  keyword qualifier := by cases qualifier <;> cases mode <;> decide
  precisionKeyword := by cases mode <;> decide
  precision precision := by cases precision <;> cases mode <;> decide
  word word c mem := by
    rcases Table.mem_apply mem with mem | ⟨entry, listed, mem⟩
    · exact Or.inl (word.letters c mem)
    · exact glslToCg_targets entry listed c mem

/-! ### Nothing to strip -/

theorem neutral_of_letter {c : Char} (letter : Text.isIdentifierChar c = true ∨ c = ' ') :
    Neutral c := by
  rcases letter with letter | rfl
  · refine ⟨?_, ?_, ?_, ?_⟩ <;>
    · rintro rfl
      exact absurd letter (by decide)
  · decide

section Changed

variable {change : Text → Text} (respects : Respects change)

include respects

theorem allSpacing_spaced_precisions (precisions : List (Break × Precision)) :
    AllSpacing (spaced change (precisions.map fun (before, asked) => (before, asked.word))) := by
  intro c mem
  simp only [spaced, List.flatMap_map, List.mem_flatMap, respects.precision, List.append_nil] at mem
  obtain ⟨entry, -, mem⟩ := mem
  exact entry.1.spacing c mem

theorem mem_spaced_words {words : List (Break × Identifier)} {c : Char}
    (mem : c ∈ spaced change (words.map fun (before, word) => (before, word.text))) :
    isSpacing c = true ∨ Text.isIdentifierChar c = true ∨ c = ' ' := by
  simp only [spaced, List.flatMap_map, List.mem_flatMap, List.mem_append] at mem
  obtain ⟨entry, -, mem | mem⟩ := mem
  · exact Or.inl (entry.1.spacing c mem)
  · exact Or.inr (respects.word entry.2 c mem)

/-- A clause has no marks but in the raw parts of a function. -/
theorem Clause.unmarked_rendered {clause : Clause} (wellFormed : clause.WellFormed change)
    {later : Text} (unmarked : Unmarked later) : Unmarked (clause.rendered change ++ later) := by
  have words : ∀ word : Identifier, ∀ c ∈ change word.text, Neutral c := by
    intro word c mem
    exact neutral_of_letter (respects.word word c mem)
  cases clause with
  | declaration qualifier precisions beforeType type beforeName name beforeStop =>
      have keyword : ∀ c ∈ change qualifier.keyword, Neutral c := by
        rw [respects.keyword]
        cases qualifier <;> decide
      simp only [rendered, front, last, List.append_assoc, List.cons_append, List.nil_append]
      rw [unmarked_append keyword,
        unmarked_append fun c mem =>
          neutral_of_spacing (allSpacing_spaced_precisions respects precisions c mem),
        unmarked_append beforeType.neutral, unmarked_append (words type),
        unmarked_append beforeName.neutral, unmarked_append (words name),
        unmarked_append beforeStop.neutral, unmarked_cons (by decide)]
      exact unmarked
  | precision listed beforeStop =>
      have keyword : ∀ c ∈ change Program.precisionKeyword, Neutral c := by
        rw [respects.precisionKeyword]
        decide
      simp only [rendered, front, last, List.append_assoc, List.cons_append, List.nil_append]
      rw [unmarked_append keyword,
        unmarked_append fun c mem =>
          (mem_spaced_words respects mem).elim neutral_of_spacing neutral_of_letter,
        unmarked_append beforeStop.neutral, unmarked_cons (by decide)]
      exact unmarked
  | stray => exact (unmarked_cons (by decide)).mpr unmarked
  | function returnType beforeName name beforeParams params beforeBody body =>
      obtain ⟨-, -, ⟨-, cleanParams⟩, -, cleanBody⟩ := wellFormed
      simp only [rendered, front, last, List.append_assoc, List.cons_append, List.nil_append]
      rw [unmarked_append (words returnType), unmarked_append beforeName.neutral,
        unmarked_append (words name), unmarked_append beforeParams.neutral,
        unmarked_cons (by decide), unmarked_append_cons (by decide),
        unmarked_append beforeBody.neutral, unmarked_cons (by decide),
        unmarked_append_cons (by decide)]
      exact ⟨cleanParams, cleanBody, unmarked⟩

/-- **There is nothing to strip** from a well-formed source. -/
theorem Written.unmarked_rendered {source : Written}
    (wellFormed : ∀ entry ∈ source.clauses, entry.2.WellFormed change) :
    Unmarked (source.rendered change) := by
  obtain ⟨clauses, trailing⟩ := source
  simp only [rendered] at wellFormed ⊢
  induction clauses with
  | nil => exact Unmarked.of_neutral trailing.neutral
  | cons entry clauses ih =>
      obtain ⟨before, clause⟩ := entry
      have first := wellFormed _ List.mem_cons_self
      have others := ih fun entry mem => wellFormed entry (List.mem_cons_of_mem _ mem)
      simp only [List.flatMap_cons, List.append_assoc]
      rw [unmarked_append before.neutral]
      exact clause.unmarked_rendered respects first others

end Changed

/-! ### Folding and reading, clause by clause -/

/-- An identifier behind layout is the first token of what is folded from there. -/
theorem spells_identifier {gap word rest : Text} {tokens : List Text}
    (spacing : AllSpacing gap) (nonempty : word ≠ [])
    (letters : ∀ c ∈ word, Text.isIdentifierChar c = true)
    (row : Spells tokens (squeeze false rest)) (ends : EndsWord (squeeze false rest)) :
    Spells (word :: tokens) (squeeze false (gap ++ (word ++ rest))) := by
  refine spells_squeeze spacing (Or.inl (word_of_identifierChars nonempty letters)) ?_ ends row
  intro c mem
  rw [← Bool.not_eq_true]
  intro blank
  have letter := letters c mem
  rw [not_identifierChar_of_spacing blank] at letter
  cases letter

theorem endsWord_squeeze_break (gap : Break) (rest : Text) :
    EndsWord (squeeze false (gap.text ++ rest)) :=
  endsWord_squeeze gap.nonempty gap.spacing rest

theorem endsWord_squeeze_spaced (change : Text → Text) (words : List (Break × Text)) (gap : Gap) :
    EndsWord (squeeze false (spaced change words ++ gap.text)) := by
  cases words with
  | nil => exact endsWord_squeeze_of_spacing gap.spacing
  | cons entry words =>
      simp only [spaced, List.flatMap_cons, List.append_assoc]
      exact endsWord_squeeze_break entry.1 _

section Read

variable {change : Text → Text} (respects : Respects change)

include respects

theorem letters_of_isName {word : Identifier} (name : Clause.IsName (change word.text)) :
    ∀ c ∈ change word.text, Text.isIdentifierChar c = true := by
  intro c mem
  rcases respects.word word c mem with letter | rfl
  · exact letter
  · exact absurd mem name.2

/-- Two names behind layout are the last tokens of what is folded from there. -/
theorem spells_names {gap : Text} (spacing : AllSpacing gap) {first second : Identifier}
    (isFirst : Clause.IsName (change first.text)) (isSecond : Clause.IsName (change second.text))
    (between : Break) (behind : Gap) :
    Spells [change first.text, change second.text]
      (squeeze false (gap ++ (change first.text ++
        (between.text ++ (change second.text ++ behind.text))))) := by
  have last : Spells [] (squeeze false behind.text) :=
    .blanks (allBlank_squeeze _ behind.spacing)
  have row := spells_identifier between.spacing isSecond.1 (letters_of_isName respects isSecond)
    last (endsWord_squeeze_of_spacing behind.spacing)
  exact spells_identifier spacing isFirst.1 (letters_of_isName respects isFirst) row
    (endsWord_squeeze_break between _)

/-- Precisions are deleted, so the layout around them is one run. -/
theorem exists_break_of_precisions (precisions : List (Break × Precision)) (behind : Break) :
    ∃ run : Break, run.text =
      spaced change (precisions.map fun (gap, asked) => (gap, asked.word)) ++ behind.text :=
  ⟨⟨⟨_, fun c mem => (List.mem_append.mp mem).elim
      (allSpacing_spaced_precisions respects precisions c) (behind.spacing c)⟩,
    by simp [behind.nonempty]⟩, rfl⟩

/-- **A folded clause is a phrase** that states the item of the clause. -/
theorem Clause.phrase_fold {clause : Clause} (wellFormed : clause.WellFormed change)
    (before : Gap) :
    Program.Phrase (clause.item? change) (fold (before.text ++ clause.rendered change)) := by
  cases clause with
  | declaration qualifier precisions beforeType type beforeName name beforeStop =>
      obtain ⟨isType, isName⟩ := wellFormed
      have typeLetters := letters_of_isName respects isType
      have nameLetters := letters_of_isName respects isName
      have keywordLetters : qualifier.keyword ≠ [] ∧
          ∀ c ∈ qualifier.keyword, Text.isIdentifierChar c = true := by
        cases qualifier <;> decide
      obtain ⟨run, runText⟩ := exists_break_of_precisions respects precisions beforeType
      have row := spells_identifier before.spacing keywordLetters.1 keywordLetters.2
        (spells_names respects run.spacing isType isName beforeName beforeStop)
        (endsWord_squeeze_break run _)
      have phrase := Program.Phrase.declaration row
        (word_of_identifierChars isType.1 typeLetters).isWord
        (word_of_identifierChars isName.1 nameLetters).isWord
      rw [rendered, last, ← List.append_assoc, fold_append_singleton (by decide), fold_eq_squeeze,
        front, respects.keyword, ← List.append_assoc (spaced _ _), ← runText]
      exact phrase
  | precision words beforeStop =>
      have keyword : Program.precisionKeyword ≠ [] ∧
          ∀ c ∈ Program.precisionKeyword, Text.isIdentifierChar c = true := by decide
      obtain ⟨tokens, row, inside⟩ := exists_spelling (squeeze false
        (spaced change (words.map fun (gap, word) => (gap, word.text)) ++ beforeStop.text))
      have first : [';'] ∉ tokens := by
        intro mem
        rcases mem_squeeze (inside _ mem ';' List.mem_cons_self) with space | ⟨stop, -⟩
        · cases space
        · rcases List.mem_append.mp stop with stop | stop
          · rcases mem_spaced_words respects stop with spacing | letter | space
            · cases spacing
            · cases letter
            · cases space
          · cases beforeStop.spacing _ stop
      have phrase := Program.Phrase.precision
        (spells_identifier before.spacing keyword.1 keyword.2 row
          (endsWord_squeeze_spaced change _ beforeStop)) first
      rw [rendered, last, ← List.append_assoc, fold_append_singleton (by decide), fold_eq_squeeze,
        front, respects.precisionKeyword]
      exact phrase
  | stray =>
      have phrase := Program.Phrase.stray (allBlank_squeeze false before.spacing)
      rw [← fold_eq_squeeze, ← fold_append_singleton (by decide)] at phrase
      exact phrase
  | function returnType beforeName name beforeParams params beforeBody body =>
      obtain ⟨⟨isType, isName⟩, ⟨noQualifier, noPrecision⟩, ⟨paramsBalance, -⟩, bodyBalance, -⟩ :=
        wellFormed
      have typeLetters := letters_of_isName respects isType
      have noStray : change returnType.text ≠ [';'] := by
        intro eq
        rw [eq] at typeLetters
        exact absurd (typeLetters ';' List.mem_cons_self) (by decide)
      have header := spells_names respects before.spacing isType isName beforeName beforeParams
      have phrase := phrase_fold_function header noQualifier noStray noPrecision paramsBalance
        beforeBody.spacing bodyBalance
      simpa [rendered, front, last, item?] using phrase

/-- **A folded source is the sequence of its clauses.** -/
theorem Written.sequence_fold {source : Written}
    (wellFormed : ∀ entry ∈ source.clauses, entry.2.WellFormed change) :
    Program.Sequence (source.items change) (fold (source.rendered change)) := by
  obtain ⟨clauses, trailing⟩ := source
  simp only [items, rendered] at wellFormed ⊢
  induction clauses with
  | nil =>
      rw [fold_eq_squeeze]
      exact .blanks (allBlank_squeeze false trailing.spacing)
  | cons entry clauses ih =>
      obtain ⟨before, clause⟩ := entry
      have first := clause.phrase_fold respects (wellFormed _ List.mem_cons_self) before
      have others := ih fun entry mem => wellFormed entry (List.mem_cons_of_mem _ mem)
      have solid : isSpacing clause.last = false := by
        cases clause <;> rfl
      have sequence := Program.Sequence.phrase first others
      rw [Clause.rendered, ← List.append_assoc, fold_append_singleton solid, List.append_assoc,
        List.singleton_append, ← fold_append_cons solid] at sequence
      cases stated : clause.item? change <;>
        simpa [stated, Clause.rendered, List.filterMap_cons] using sequence

end Read

/-! ### The conversion as a whole -/

theorem Clause.exists_first (clause : Clause) :
    ∃ c rest, clause.rendered id = c :: rest ∧ (Text.isIdentifierChar c = true ∨ c = ';') := by
  cases clause with
  | declaration qualifier =>
      cases qualifier <;> exact ⟨_, _, rfl, Or.inl (by decide)⟩
  | precision => exact ⟨_, _, rfl, Or.inl (by decide)⟩
  | stray => exact ⟨_, _, rfl, Or.inr rfl⟩
  | function returnType =>
      obtain ⟨c, rest, eq⟩ := List.exists_cons_of_ne_nil returnType.nonempty
      have letter := returnType.letters c (eq ▸ List.mem_cons_self)
      simp only [rendered, front, id, eq, List.cons_append]
      exact ⟨c, _, rfl, Or.inl letter⟩

/-- No written source begins with a byte order mark. -/
theorem Written.dropMark_render (source : Written) :
    Source.dropMark source.render = source.render := by
  have kept : ∀ text : Text, (∀ c ∈ text.head?,
      isSpacing c = true ∨ Text.isIdentifierChar c = true ∨ c = ';') →
      Source.dropMark text = text := by
    intro text first
    cases text with
    | nil => rfl
    | cons c rest =>
        have other : c ≠ Char.ofNat 0xFEFF := by
          rintro rfl
          exact absurd (first _ rfl) (by decide)
        simp [Source.dropMark, other]
  apply kept
  obtain ⟨clauses, trailing⟩ := source
  have gap : ∀ (before : Gap) (rest : Text), (∀ c ∈ rest.head?,
      isSpacing c = true ∨ Text.isIdentifierChar c = true ∨ c = ';') →
      ∀ c ∈ (before.text ++ rest).head?,
        isSpacing c = true ∨ Text.isIdentifierChar c = true ∨ c = ';' := by
    intro before rest first c
    by_cases empty : before.text = []
    · rw [empty]
      exact first c
    · rw [List.head?_append_of_ne_nil _ empty]
      exact fun mem => Or.inl (before.spacing c (List.mem_of_mem_head? mem))
  cases clauses with
  | nil =>
      have ends := gap trailing [] (by simp)
      simpa [render, rendered] using ends
  | cons entry clauses =>
      obtain ⟨c, rest, eq, letter⟩ := entry.2.exists_first
      simp only [render, rendered, List.flatMap_cons, List.append_assoc, eq, List.cons_append]
      refine gap entry.1 _ ?_
      rintro _ ⟨⟩
      exact Or.inr letter

theorem Written.program_lists (change : Text → Text) (source : Written) :
    (source.program change).Lists (source.items change) :=
  ⟨fun qualifier => by cases qualifier <;> rfl, rfl⟩

/-- The prepared text of a well-formed source is read as the program that the source states. -/
theorem Written.parse_prepare {mode : Mode} {source : Written}
    (wellFormed : source.WellFormed (Table.glslToCg.apply mode)) :
    Program.parse (Source.prepare Table.glslToCg mode source.render) =
      .ok (source.program (Table.glslToCg.apply mode)) := by
  have respects := glslToCg_respects mode
  rw [Source.prepare, source.dropMark_render, source.apply_render glslToCg_isLexical,
    strip_of_unmarked (source.unmarked_rendered respects wellFormed.clauses)]
  exact Program.States.parse_eq_ok ⟨_, source.sequence_fold respects wellFormed.clauses,
    source.program_lists _, wellFormed.oneMain.le⟩

/-- **Well-formed sources are converted.** Whatever the layout, the text of a well-formed source
is converted into the listing of the program that the source states. -/
theorem convert_render (mode : Mode) (stage : Stage) (source : Written)
    (wellFormed : source.WellFormed (Table.glslToCg.apply mode)) :
    ∃ output, Conversion.convert { Settings.standard with mode } stage source.render = .ok output ∧
      Listing.generate { Settings.standard with mode } stage
        (source.program (Table.glslToCg.apply mode)) = .ok output := by
  have parsed := Written.parse_prepare wellFormed
  have main :
      0 < (source.program (Table.glslToCg.apply mode)).functions.countP Function.isMain := by
    rw [wellFormed.oneMain]
    exact Nat.one_pos
  obtain ⟨output, generated⟩ := exists_generate { Settings.standard with mode } stage main
  have converted := convert_of_parse { Settings.standard with mode } stage parsed
  exact ⟨output, converted.trans generated, generated⟩

/-- A source with a precision statement, a declaration, a stray semicolon and two functions, in
a layout with all sorts of spacing. -/
def Written.sample : Written where
  clauses := [
    ({ text := [] }, .precision
      [({ text := [' '] }, { text := "mediump".toList }),
        ({ text := ['\t'] }, { text := "float".toList })] { text := [] }),
    ({ text := ['\r', '\n'] }, .declaration .uniform [({ text := [' ', ' '] }, .high)]
      { text := ['\n'] } { text := "vec4".toList }
      { text := ['\t', ' '] } { text := "tint".toList } { text := [' '] }),
    ({ text := [] }, .stray),
    ({ text := [] }, .function { text := "vec2".toList }
      { text := [' '] } { text := "half".toList }
      { text := [] } " vec2 v".toList { text := [] } "\n\treturn v;\n".toList),
    ({ text := ['\n', '\n'] }, .function { text := "void".toList }
      { text := [' '] } { text := "main".toList }
      { text := [' '] } [] { text := ['\n'] } "\x7b gl_FragColor = tint; \x7d".toList)]
  trailing := { text := ['\n'] }

theorem convert_render_sample :
    Written.sample.render =
        ("precision mediump\tfloat;\r\nuniform  highp\nvec4\t tint ;;".toList
          ++ "vec2 half( vec2 v)\x7b\n\treturn v;\n\x7d\n\n".toList
          ++ "void main ()\n\x7b\x7b gl_FragColor = tint; \x7d\x7d\n".toList) ∧
      Written.sample.program (Table.glslToCg.apply .wholeWord) =
        { uniforms := [⟨"float4".toList, "tint".toList⟩]
          functions := [
            ⟨"half".toList, "float2".toList, "float2 v".toList, "return v;".toList⟩,
            ⟨"main".toList, "void".toList, [], "\x7b gl_FragColor = tint; \x7d".toList⟩] } ∧
      ∃ output,
        Conversion.convert { Settings.standard with mode := .wholeWord } .fragment
          Written.sample.render = .ok output ∧
        Listing.generate { Settings.standard with mode := .wholeWord } .fragment
          (Written.sample.program (Table.glslToCg.apply .wholeWord)) = .ok output :=
  ⟨by decide +kernel, by decide +kernel,
    convert_render .wholeWord .fragment Written.sample (by decide +kernel)⟩

end CrossShade
