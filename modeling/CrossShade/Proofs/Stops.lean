import CrossShade.Proofs.Succession

/-!
Where reading stops. A text that does not go on with a phrase breaks off in one of a few ways:
behind the tokens that were right comes one that is not, a bracket is never closed, or a second
entry point is complete. `Breaks` lists them, each with the fault that reports it and the text that
is not looked at any more.

* `readStep_eq_failed_iff`: a step fails exactly where a phrase breaks off.
* `read_eq_failed_iff`: a reading fails exactly behind the phrases of a sequence.
* `read_stops_at_cause`: what was looked at ends with what the fault names.
-/

namespace CrossShade.Token

/-! ### Tokens in a row -/

/-- Reading takes the tokens off the text one after another and leaves `rest`. The token that is
read at the end of a text is empty. -/
def Reads : List Text → Text → Text → Prop
  | [], text, rest => text = rest
  | token :: tokens, text, rest => (next text).1 = token ∧ Reads tokens (next text).2 rest

section Reads

variable {token text rest : Text} {tokens : List Text}

@[simp] theorem reads_nil : Reads [] text rest ↔ text = rest :=
  Iff.rfl

@[simp] theorem reads_cons :
    Reads (token :: tokens) text rest ↔ (next text).1 = token ∧ Reads tokens (next text).2 rest :=
  Iff.rfl

theorem reads_append {later : List Text} :
    Reads (tokens ++ later) text rest ↔
      ∃ behind, Reads tokens text behind ∧ Reads later behind rest := by
  induction tokens generalizing text with
  | nil => simp
  | cons token tokens ih => simp [ih, and_assoc]

theorem Reads.suffix (reads : Reads tokens text rest) : rest <:+ text := by
  induction tokens generalizing text with
  | nil =>
      obtain rfl := reads
      exact List.suffix_rfl
  | cons token tokens ih => exact (ih reads.2).trans (next_suffix text)

end Reads

end CrossShade.Token

namespace CrossShade.Program

open CrossShade.Token CrossShade.Enclosed

/-! ### Broken phrases -/

/-- The token can be the return type of a function: it starts no other phrase. -/
structure IsReturnType (token : Text) : Prop where
  nonempty : token ≠ []
  noQualifier : ∀ qualifier : Qualifier, token ≠ qualifier.keyword
  noStray : token ≠ [';']
  noPrecision : token ≠ precisionKeyword

/-- Where the text of a function is to be reported. -/
def headerOf (name : Text) : Text :=
  "header of function '".toList ++ name ++ "'".toList

/-- The text begins a phrase that breaks off in front of `rest`, and the fault that this is.
`hasMain` tells that there is an entry point already. -/
inductive Breaks (hasMain : Bool) : Fault → Text → Text → Prop where
  | noType {qualifier : Qualifier} {found text rest : Text}
      (reads : Reads [qualifier.keyword, found] text rest) (noWord : isWord found = false) :
      Breaks hasMain (.malformedDeclaration qualifier.keyword "a type".toList found) text rest
  | noName {qualifier : Qualifier} {type found text rest : Text}
      (reads : Reads [qualifier.keyword, type, found] text rest) (typeWord : isWord type = true)
      (noWord : isWord found = false) :
      Breaks hasMain (.malformedDeclaration qualifier.keyword "a name".toList found) text rest
  | noStop {qualifier : Qualifier} {type name found text rest : Text}
      (reads : Reads [qualifier.keyword, type, name, found] text rest)
      (typeWord : isWord type = true) (nameWord : isWord name = true) (other : found ≠ [';']) :
      Breaks hasMain (.malformedDeclaration qualifier.keyword "';'".toList found) text rest
  | endless {tokens : List Text} {text rest : Text}
      (reads : Reads (precisionKeyword :: (tokens ++ [[]])) text rest)
      (inside : ∀ token ∈ tokens, token ≠ [] ∧ token ≠ [';']) :
      Breaks hasMain (.malformedDeclaration precisionKeyword "';'".toList []) text rest
  | nameless {returnType text rest : Text} (starts : IsReturnType returnType)
      (reads : Reads [returnType, []] text rest) :
      Breaks hasMain (.unexpectedToken "function name".toList []
        ("declaration starting with '".toList ++ returnType ++ "'".toList)) text rest
  | noParen {returnType name found text rest : Text} (starts : IsReturnType returnType)
      (reads : Reads [returnType, name, found] text rest) (named : name ≠ [])
      (other : found ≠ ['(']) :
      Breaks hasMain (.unexpectedToken ['('] found (headerOf name)) text rest
  | openParams {returnType name text rest : Text} (starts : IsReturnType returnType)
      (reads : Reads [returnType, name, ['(']] text rest) (named : name ≠ [])
      (unclosed : Unclosed '(' ')' rest) : Breaks hasMain (.unbalanced name '(') text rest
  | noBrace {returnType name params behind found text rest : Text}
      (starts : IsReturnType returnType)
      (reads : Reads [returnType, name, ['(']] text (params ++ ')' :: behind)) (named : name ≠ [])
      (balanced : Balanced '(' ')' params) (later : Reads [found] behind rest)
      (other : found ≠ ['{']) :
      Breaks hasMain (.unexpectedToken ['{'] found (headerOf name)) text rest
  | openBody {returnType name params behind text rest : Text} (starts : IsReturnType returnType)
      (reads : Reads [returnType, name, ['(']] text (params ++ ')' :: behind)) (named : name ≠ [])
      (balanced : Balanced '(' ')' params) (later : Reads [['{']] behind rest)
      (unclosed : Unclosed '{' '}' rest) : Breaks hasMain (.unbalanced name '{') text rest
  | again {function : Function} {taken rest : Text} (known : hasMain = true)
      (phrase : Phrase (some (.function function)) taken) (main : function.isMain = true) :
      Breaks hasMain .duplicateMain (taken ++ rest) rest

section Parts

variable {hasMain : Bool} {fault : Fault} {text behind rest : Text}

theorem skipStatement_eq_failed_iff :
    skipStatement text = .failed fault rest ↔
      fault = .malformedDeclaration precisionKeyword "';'".toList [] ∧
        ∃ tokens, Reads (tokens ++ [[]]) text rest ∧
          ∀ token ∈ tokens, token ≠ [] ∧ token ≠ [';'] := by
  constructor
  · intro failed
    induction text using skipStatement.induct with
    | case1 text atEnd =>
        rw [skipStatement, dif_pos atEnd] at failed
        obtain ⟨rfl, rfl⟩ := Part.failed.inj failed
        exact ⟨rfl, [], ⟨atEnd, rfl⟩, fun token mem => absurd mem List.not_mem_nil⟩
    | case2 text atEnd atStop =>
        rw [skipStatement, dif_neg atEnd, if_pos atStop] at failed
        cases failed
    | case3 text atEnd atStop ih =>
        rw [skipStatement, dif_neg atEnd, if_neg atStop] at failed
        obtain ⟨eq, tokens, reads, inside⟩ := ih failed
        exact ⟨eq, (next text).1 :: tokens, ⟨rfl, reads⟩,
          List.forall_mem_cons.mpr ⟨⟨atEnd, atStop⟩, inside⟩⟩
  · rintro ⟨rfl, tokens, reads, inside⟩
    induction tokens generalizing text with
    | nil =>
        obtain ⟨atEnd, rfl⟩ := reads
        rw [skipStatement, dif_pos atEnd]
    | cons token tokens ih =>
        obtain ⟨rfl, reads⟩ := reads
        obtain ⟨⟨more, other⟩, later⟩ := List.forall_mem_cons.mp inside
        rw [skipStatement, dif_neg more, if_neg other]
        exact ih reads later

/-- A declaration that cannot be read breaks off. -/
theorem breaks_of_readDeclaration {qualifier : Qualifier}
    (keyword : (next text).1 = qualifier.keyword)
    (failed : readDeclaration qualifier (next text).2 = .failed fault rest) :
    Breaks hasMain fault text rest := by
  simp only [readDeclaration] at failed
  split at failed
  · next noWord =>
      obtain ⟨rfl, rfl⟩ := Part.failed.inj failed
      exact .noType ⟨keyword, rfl, rfl⟩ (by simpa using noWord)
  · next typeWord =>
      split at failed
      · next noWord =>
          obtain ⟨rfl, rfl⟩ := Part.failed.inj failed
          exact .noName ⟨keyword, rfl, rfl, rfl⟩ (by simpa using typeWord) (by simpa using noWord)
      · next nameWord =>
          split at failed
          · next other =>
              obtain ⟨rfl, rfl⟩ := Part.failed.inj failed
              exact .noStop ⟨keyword, rfl, rfl, rfl, rfl⟩ (by simpa using typeWord)
                (by simpa using nameWord) other
          · cases failed

/-- A function that cannot be read breaks off. -/
theorem breaks_of_readFunction (starts : IsReturnType (next text).1)
    (failed : readFunction (next text).1 (next text).2 = .failed fault rest) :
    Breaks hasMain fault text rest := by
  simp only [readFunction] at failed
  split at failed
  · next nameless =>
      obtain ⟨rfl, rfl⟩ := Part.failed.inj failed
      rw [nameless]
      exact .nameless starts ⟨rfl, nameless, rfl⟩
  · next named =>
      split at failed
      · next other =>
          obtain ⟨rfl, rfl⟩ := Part.failed.inj failed
          exact .noParen starts ⟨rfl, rfl, rfl, rfl⟩ named other
      · next paren =>
          have header : ∀ {left}, (next (next (next text).2).2).2 = left →
              Reads [(next text).1, (next (next text).2).1, ['(']] text left :=
            fun left => ⟨rfl, rfl, not_not.mp paren, left⟩
          split at failed
          · next unclosed =>
              obtain ⟨rfl, rfl⟩ := Part.failed.inj failed
              exact .openParams starts (header rfl) named (params?_eq_none_iff.mp unclosed)
          · next params behind enclosed =>
              obtain ⟨inner, left, balanced, -⟩ := params?_eq_some_iff.mp enclosed
              split at failed
              · next other =>
                  obtain ⟨rfl, rfl⟩ := Part.failed.inj failed
                  exact .noBrace starts (header left) named balanced ⟨rfl, rfl⟩ other
              · next brace =>
                  split at failed
                  · next unclosed =>
                      obtain ⟨rfl, rfl⟩ := Part.failed.inj failed
                      exact .openBody starts (header left) named balanced ⟨not_not.mp brace, rfl⟩
                        (body?_eq_none_iff.mp unclosed)
                  · cases failed

end Parts

/-! ### One step -/

section Steps

variable {hasMain : Bool} {fault : Fault} {text rest : Text}

theorem breaks_of_readStep (failed : readStep hasMain text = .failed fault rest) :
    Breaks hasMain fault text rest := by
  simp only [readStep] at failed
  split at failed
  · cases failed
  · next found =>
      split at failed
      · next qualifier keyword =>
          split at failed
          · cases failed
          · next read =>
              obtain ⟨rfl, rfl⟩ := Step.failed.inj failed
              exact breaks_of_readDeclaration (Qualifier.eq_keyword_of_ofKeyword? keyword) read
      · next keyword =>
          have noQualifier := Qualifier.ofKeyword?_eq_none_iff.mp keyword
          split at failed
          · cases failed
          · next noStray =>
              split at failed
              · next isPrecision =>
                  split at failed
                  · cases failed
                  · next read =>
                      obtain ⟨rfl, rfl⟩ := Step.failed.inj failed
                      obtain ⟨rfl, tokens, reads, inside⟩ := skipStatement_eq_failed_iff.mp read
                      exact .endless ⟨isPrecision, reads⟩ inside
              · next noPrecision =>
                  split at failed
                  · next function behind read =>
                      split at failed
                      · next twice =>
                          obtain ⟨main, known⟩ := Bool.and_eq_true_iff.mp twice
                          obtain ⟨rfl, rfl⟩ := Step.failed.inj failed
                          obtain ⟨front, phrase, rfl⟩ := exists_phrase_of_readFunction found
                            noQualifier noStray noPrecision read
                          exact .again known phrase main
                      · cases failed
                  · next read =>
                      obtain ⟨rfl, rfl⟩ := Step.failed.inj failed
                      exact breaks_of_readFunction ⟨found, noQualifier, noStray, noPrecision⟩ read

theorem readStep_of_readDeclaration {qualifier : Qualifier}
    (keyword : (next text).1 = qualifier.keyword)
    (failed : readDeclaration qualifier (next text).2 = .failed fault rest) :
    readStep hasMain text = .failed fault rest := by
  have more : qualifier.keyword ≠ [] := by cases qualifier <;> exact List.cons_ne_nil _ _
  simp only [readStep, keyword, more, Qualifier.ofKeyword?_keyword, failed, ↓reduceIte]

theorem readStep_of_readFunction (starts : IsReturnType (next text).1)
    (failed : readFunction (next text).1 (next text).2 = .failed fault rest) :
    readStep hasMain text = .failed fault rest := by
  have noKeyword := Qualifier.ofKeyword?_eq_none_iff.mpr starts.noQualifier
  simp only [readStep, starts.nonempty, noKeyword, starts.noStray, starts.noPrecision, failed,
    ↓reduceIte]

theorem readStep_of_breaks (breaks : Breaks hasMain fault text rest) :
    readStep hasMain text = .failed fault rest := by
  cases breaks with
  | noType reads noWord =>
      obtain ⟨keyword, rfl, rfl⟩ := reads
      refine readStep_of_readDeclaration keyword ?_
      simp [readDeclaration, noWord]
  | noName reads typeWord noWord =>
      obtain ⟨keyword, rfl, rfl, rfl⟩ := reads
      refine readStep_of_readDeclaration keyword ?_
      simp [readDeclaration, typeWord, noWord]
  | noStop reads typeWord nameWord other =>
      obtain ⟨keyword, rfl, rfl, rfl, rfl⟩ := reads
      refine readStep_of_readDeclaration keyword ?_
      simp [readDeclaration, typeWord, nameWord, other]
  | endless reads inside =>
      obtain ⟨keyword, reads⟩ := reads
      have skips := skipStatement_eq_failed_iff.mpr ⟨rfl, _, reads, inside⟩
      have noKeyword : Qualifier.ofKeyword? precisionKeyword = none := by decide
      have more : precisionKeyword ≠ [] := List.cons_ne_nil _ _
      have noStray : precisionKeyword ≠ [';'] := by decide
      simp only [readStep, keyword, noKeyword, more, noStray, skips, ↓reduceIte]
  | nameless starts reads =>
      obtain ⟨rfl, nameless, rfl⟩ := reads
      refine readStep_of_readFunction starts ?_
      simp [readFunction, nameless]
  | noParen starts reads named other =>
      obtain ⟨rfl, rfl, rfl, rfl⟩ := reads
      refine readStep_of_readFunction starts ?_
      simp only [readFunction, named, other, ne_eq, not_false_eq_true, ↓reduceIte]
      rfl
  | openParams starts reads named unclosed =>
      obtain ⟨rfl, rfl, paren, rfl⟩ := reads
      refine readStep_of_readFunction starts ?_
      simp [readFunction, named, paren, params?_eq_none_iff.mpr unclosed]
  | noBrace starts reads named balanced later other =>
      obtain ⟨rfl, rfl, paren, left⟩ := reads
      obtain ⟨rfl, rfl⟩ := later
      have enclosed := params?_eq_some_iff.mpr ⟨_, left, balanced, rfl⟩
      refine readStep_of_readFunction starts ?_
      simp only [readFunction, named, paren, enclosed, other, ne_eq, not_false_eq_true,
        not_true_eq_false, ↓reduceIte]
      rfl
  | openBody starts reads named balanced later unclosed =>
      obtain ⟨rfl, rfl, paren, left⟩ := reads
      obtain ⟨brace, rfl⟩ := later
      have enclosed := params?_eq_some_iff.mpr ⟨_, left, balanced, rfl⟩
      refine readStep_of_readFunction starts ?_
      simp [readFunction, named, paren, enclosed, brace, body?_eq_none_iff.mpr unclosed]
  | again known phrase main =>
      rw [readStep_append_of_phrase hasMain phrase, Step.ofPhrase]
      simp [Item.isMain, main, known]

/-- **A step fails exactly where a phrase breaks off**, with the fault that this is. -/
theorem readStep_eq_failed_iff :
    readStep hasMain text = .failed fault rest ↔ Breaks hasMain fault text rest :=
  ⟨breaks_of_readStep, readStep_of_breaks⟩

end Steps

/-! ### Whole texts -/

section Readings

variable {hasMain : Bool} {fault : Fault} {text rest : Text} {items : List Item}

theorem exists_breaks_of_readItems
    (failed : readItems hasMain text = ⟨items, rest, some fault⟩) :
    ∃ front last, text = front ++ last ∧ Sequence items front ∧ Fits hasMain items ∧
      Breaks (hasMain || items.any Item.isMain) fault last rest := by
  induction hasMain, text using readItems.induct generalizing items with
  | case1 hasMain text step =>
      rw [readItems_of_finished step] at failed
      cases failed
  | case2 hasMain text behind step ih =>
      rw [readItems_of_skipped step] at failed
      have takes := readStep_takes hasMain text
      rw [step] at takes
      obtain ⟨phraseText, phrase, rfl⟩ := takes
      obtain ⟨front, last, rfl, sequence, fits, breaks⟩ := ih failed
      exact ⟨phraseText ++ front, last, (List.append_assoc _ _ _).symm, .phrase phrase sequence,
        fits, breaks⟩
  | case3 hasMain text item behind step ih =>
      rw [readItems_of_item step] at failed
      obtain ⟨single, phraseText, phrase, rfl⟩ := exists_phrase_of_readStep step
      obtain ⟨rfl, left, cause⟩ := Reading.mk.inj failed
      obtain ⟨front, last, rfl, sequence, fits, breaks⟩ :=
        ih (show readItems _ _ = ⟨_, rest, some fault⟩ by rw [← left, ← cause])
      refine ⟨phraseText ++ front, last, (List.append_assoc _ _ _).symm, .phrase phrase sequence,
        fits_cons.mpr ⟨single, fits⟩, ?_⟩
      rw [List.any_cons, ← Bool.or_assoc]
      exact breaks
  | case4 hasMain text cause behind step =>
      rw [readItems_of_failed step] at failed
      obtain ⟨rfl, rfl, same⟩ := Reading.mk.inj failed
      obtain rfl := Option.some.inj same
      refine ⟨[], text, rfl, .blanks Text.allBlank_nil, ?_, ?_⟩
      · cases hasMain <;> simp [Fits]
      · rw [List.any_nil, Bool.or_false]
        exact breaks_of_readStep step

/-- **A reading fails exactly behind the phrases of a sequence**: in front of the phrase that breaks
off there are whole phrases with at most one entry point. -/
theorem read_eq_failed_iff :
    read text = ⟨items, rest, some fault⟩ ↔
      ∃ front last, text = front ++ last ∧ Sequence items front ∧
        items.countP Item.isMain ≤ 1 ∧ Breaks (items.any Item.isMain) fault last rest := by
  have fits : Fits false items ↔ items.countP Item.isMain ≤ 1 := by simp [Fits]
  constructor
  · intro failed
    obtain ⟨front, last, whole, sequence, single, breaks⟩ := exists_breaks_of_readItems failed
    exact ⟨front, last, whole, sequence, fits.mp single, breaks⟩
  · rintro ⟨front, last, rfl, sequence, single, breaks⟩
    rw [read, readItems_append sequence (fits.mpr single), Bool.false_or,
      readItems_of_failed (readStep_of_breaks breaks), Reading.prepend, List.append_nil]

end Readings

/-! ### What the end of the text that was looked at shows -/

/-- The text ends with the token `found`, which was read behind blanks and in front of `rest`. It is
empty just if nothing but blanks was left to read, and then there is no rest. -/
def ShowsToken (found taken rest : Text) : Prop :=
  ∃ ahead gap, taken = ahead ++ (gap ++ found) ∧ next (gap ++ found ++ rest) = (found, rest) ∧
    (found = [] ↔ Text.AllBlank (gap ++ found ++ rest)) ∧ (found = [] → rest = [])

/-- What the phrase that broke off, from its start to the end of the text that was looked at, shows
of the fault: the token that was found in place of another, the bracket that stays open, or the end
of a second entry point behind `items`, which have one. -/
def Shows (items : List Item) (taken rest : Text) : Fault → Prop
  | .malformedDeclaration _ _ found => ShowsToken found taken rest
  | .unexpectedToken _ found _ => ShowsToken found taken rest
  | .unbalanced _ delimiter => [delimiter] <:+ taken ∧
      (delimiter = '(' ∧ Unclosed '(' ')' rest ∨ delimiter = '{' ∧ Unclosed '{' '}' rest)
  | .duplicateMain => ['}'] <:+ taken ∧ items.countP Item.isMain = 1 ∧
      ∃ function : Function, Phrase (some (.function function)) taken ∧ function.isMain = true
  | _ => False

section Shown

variable {found taken rest text : Text}

theorem showsToken_of_next {left ahead : Text} (read : next left = (found, rest))
    (whole : text = ahead ++ left) (split : text = taken ++ rest) :
    ShowsToken found taken rest := by
  obtain ⟨gap, -, eq⟩ := Text.exists_gap_append_trimStart left
  rw [← next_append, read, ← List.append_assoc] at eq
  refine ⟨ahead, gap, ?_, eq ▸ read, ?_, ?_⟩
  · refine List.append_cancel_right (split.symm.trans (whole.trans ?_))
    rw [eq, List.append_assoc ahead]
  · rw [← eq, ← next_eq_nil_iff, read]
  · intro atEnd
    have blank := next_eq_nil_iff.mp ((congrArg Prod.fst read).trans atEnd)
    rw [next_of_allBlank blank] at read
    exact (congrArg Prod.snd read).symm

theorem showsToken_of_reads {tokens : List Text} (reads : Reads (tokens ++ [found]) text rest)
    (split : text = taken ++ rest) : ShowsToken found taken rest := by
  obtain ⟨left, earlier, read, last⟩ := reads_append.mp reads
  obtain ⟨ahead, whole⟩ := earlier.suffix
  exact showsToken_of_next (Prod.ext read last) whole.symm split

theorem ShowsToken.suffix (shows : ShowsToken found taken rest) : found <:+ taken := by
  obtain ⟨ahead, gap, rfl, -⟩ := shows
  exact ⟨ahead ++ gap, List.append_assoc _ _ _⟩

/-- What was read behind a bracket is left of the whole text. -/
theorem showsToken_behind {tokens : List Text} {params behind : Text}
    (reads : Reads tokens text (params ++ ')' :: behind)) (last : Reads [found] behind rest)
    (split : text = taken ++ rest) : ShowsToken found taken rest := by
  obtain ⟨ahead, whole⟩ := reads.suffix
  obtain ⟨read, left⟩ := last
  have cut : text = ahead ++ (params ++ [')']) ++ behind := by
    rw [← whole]
    simp
  exact showsToken_of_next (Prod.ext read left) cut split

theorem closing_suffix {function : Function} (phrase : Phrase (some (.function function)) taken) :
    ['}'] <:+ taken := by
  cases phrase with
  | @function header params gap body returnType name =>
      refine ⟨header ++ '(' :: (params ++ ')' :: (gap ++ '{' :: body)), ?_⟩
      simp

/-- **What a broken phrase shows** is what the fault names. -/
theorem Breaks.shows {items : List Item} {fault : Fault}
    (breaks : Breaks (items.any Item.isMain) fault text rest)
    (single : items.countP Item.isMain ≤ 1) (split : text = taken ++ rest) :
    Shows items taken rest fault := by
  cases breaks with
  | noType reads => exact showsToken_of_reads (show Reads ([_] ++ [_]) _ _ from reads) split
  | noName reads => exact showsToken_of_reads (show Reads ([_, _] ++ [_]) _ _ from reads) split
  | noStop reads => exact showsToken_of_reads (show Reads ([_, _, _] ++ [_]) _ _ from reads) split
  | endless reads => exact showsToken_of_reads (show Reads (_ :: _ ++ [_]) _ _ from reads) split
  | nameless _ reads => exact showsToken_of_reads (show Reads ([_] ++ [_]) _ _ from reads) split
  | noParen _ reads => exact showsToken_of_reads (show Reads ([_, _] ++ [_]) _ _ from reads) split
  | openParams _ reads _ unclosed =>
      have shows := showsToken_of_reads (show Reads ([_, _] ++ [_]) _ _ from reads) split
      exact ⟨shows.suffix, Or.inl ⟨rfl, unclosed⟩⟩
  | noBrace _ reads _ _ later => exact showsToken_behind reads later split
  | openBody _ reads _ _ later unclosed =>
      exact ⟨(showsToken_behind reads later split).suffix, Or.inr ⟨rfl, unclosed⟩⟩
  | again known phrase main =>
      obtain rfl := List.append_cancel_right split
      have positive := List.countP_pos_iff.mpr (List.any_eq_true.mp known)
      exact ⟨closing_suffix phrase, by omega, _, phrase, main⟩

end Shown

theorem Breaks.suffix {hasMain : Bool} {fault : Fault} {text rest : Text}
    (breaks : Breaks hasMain fault text rest) : rest <:+ text := by
  have behind : ∀ {params behind : Text}, behind <:+ params ++ ')' :: behind :=
    fun {params behind} => (List.suffix_cons ')' behind).trans (List.suffix_append params _)
  cases breaks with
  | noType reads | noName reads | noStop reads | endless reads => exact reads.suffix
  | nameless _ reads | noParen _ reads | openParams _ reads => exact reads.suffix
  | noBrace _ reads _ _ later | openBody _ reads _ _ later =>
      exact (later.suffix.trans behind).trans reads.suffix
  | again _ _ _ => exact List.suffix_append _ _

/-- Nothing is left of a text that was read to its end. -/
theorem rest_eq_nil_of_sound {text : Text} (sound : (read text).fault = none) :
    (read text).rest = [] := by
  obtain ⟨sequence, fits⟩ := sequence_of_readItems sound
  have whole := readItems_append sequence fits []
  have atEnd : ∀ hasMain, readItems hasMain [] = ⟨[], [], none⟩ :=
    fun hasMain => readItems_of_finished rfl
  rw [List.append_nil, atEnd] at whole
  exact congrArg Reading.rest whole

theorem read_of_parse_error {text : Text} {fault : Fault} (failed : parse text = .error fault) :
    read text = ⟨(read text).items, (read text).rest, some fault⟩ := by
  rw [← parse_eq_error failed]

/-- **A failed reading stops exactly at its cause.** What is left of a text is a suffix of it, and
nothing is left of one that was read to its end. Where a text fails, what was looked at consists of
whole phrases with at most one entry point and of the one phrase that breaks off; and this ends with
what the fault names: the token that was found, which is empty just if only blanks were left, a
bracket that the rest does not close, or the brace that closes a second entry point. -/
theorem read_stops_at_cause (text : Text) :
    (read text).rest <:+ text ∧
      (∀ program, parse text = .ok program → (read text).rest = []) ∧
      ∀ fault, parse text = .error fault →
        ∃ front taken, text = front ++ taken ++ (read text).rest ∧
          Sequence (read text).items front ∧ (read text).items.countP Item.isMain ≤ 1 ∧
          Breaks ((read text).items.any Item.isMain) fault (taken ++ (read text).rest)
            (read text).rest ∧
          Shows (read text).items taken (read text).rest fault := by
  refine ⟨?_, fun program parsed => rest_eq_nil_of_sound (parse_eq_ok parsed).1, ?_⟩
  · cases result : parse text with
    | ok program =>
        rw [rest_eq_nil_of_sound (parse_eq_ok result).1]
        exact List.nil_suffix
    | error fault =>
        obtain ⟨front, last, whole, -, -, breaks⟩ :=
          read_eq_failed_iff.mp (read_of_parse_error result)
        exact breaks.suffix.trans ⟨front, whole.symm⟩
  · intro fault failed
    obtain ⟨front, last, whole, sequence, single, breaks⟩ :=
      read_eq_failed_iff.mp (read_of_parse_error failed)
    obtain ⟨taken, split⟩ := breaks.suffix
    refine ⟨front, taken, ?_, sequence, single, split ▸ breaks, breaks.shows single split.symm⟩
    rw [List.append_assoc, split, whole]

end CrossShade.Program
