import CrossShade.Proofs.BodyRules
import CrossShade.Proofs.FoldedRow

/-!
Listings read again. A program that was read from a prepared text without marks gives a listing
that is read as its functions: the other functions as they were, with their bodies edited, and
the entry function behind them (`parse_listing`).

What makes this go through is kept in `Function.Legible`: tokens have no layout in them,
parameters and bodies are balanced, and nothing has marks. All of it is inherited from the
prepared text (`legible_of_sequence`), the rules keep it (`Function.Legible.edited`), and it is
what a definition needs to be read back (`sequence_definition`).
-/

namespace CrossShade

open CrossShade.Token CrossShade.Layout CrossShade.Comment CrossShade.Enclosed

/-! ### What was read from a prepared text -/

/-- A token that layout can surround. -/
structure Token.Legible (token : Text) : Prop where
  isToken : IsToken token
  solid : ∀ c ∈ token, isSpacing c = false
  unmarked : Unmarked token

/-- A declaration that can stand among parameters. -/
def Declaration.IsPlain (declaration : Declaration) : Prop :=
  Plain '(' ')' declaration.type ∧ Plain '(' ')' declaration.name

/-- A function that can be written down and read again: its header consists of tokens that start
no other phrase, its parameters and its body end where they should, and nothing has marks. -/
structure Function.Legible (function : Function) : Prop where
  returnType : Token.Legible function.returnType
  name : Token.Legible function.name
  noQualifier : ∀ qualifier : Qualifier, function.returnType ≠ qualifier.keyword
  noStray : function.returnType ≠ [';']
  noPrecision : function.returnType ≠ Program.precisionKeyword
  paramsBalance : Balanced '(' ')' function.params
  paramsUnmarked : Unmarked function.params
  bodyBalance : Balanced '{' '}' function.body
  bodyUnmarked : Unmarked function.body

/-- An item that can be written down and read again, with parameters that stay as they are. -/
def Item.Legible : Item → Prop
  | .declaration _ stated => stated.IsPlain
  | .function definition =>
      definition.Legible ∧ Text.trimStart (fold definition.params) = definition.params

section Inherited

variable {text row token : Text} {tokens : List Text}

theorem legible_of_spells (spelled : Spells tokens row) (folded : Folded row)
    (unmarked : Unmarked row) (mem : token ∈ tokens) : Token.Legible token := by
  obtain ⟨isToken, part⟩ := spelled.mem mem
  refine ⟨isToken, fun c letter => ?_, unmarked.of_infix part⟩
  rw [← Bool.not_eq_true]
  intro spacing
  obtain rfl := folded.spaces c (part.subset letter) spacing
  exact isToken.not_space letter

/-- A word has no delimiters, so a word without marks is plain. -/
theorem plain_of_word (word : Word token) (unmarked : Unmarked token) : Plain '(' ')' token := by
  intro c mem
  have letter := word.whole c mem
  have delimiters : ∀ d ∈ ['/', '*', '(', ')'], isDelimiter d = true := by decide
  have other : ∀ d ∈ ['/', '*', '(', ')'], c ≠ d := by
    rintro d listed rfl
    rw [delimiters c listed] at letter
    cases letter
  exact ⟨⟨fun eq => unmarked.noQuote (eq ▸ mem), fun eq => unmarked.noHash (eq ▸ mem),
    other _ (by decide), other _ (by decide)⟩, other _ (by decide), other _ (by decide)⟩

/-- What a phrase of a prepared text states is legible. -/
theorem legible_of_phrase {item : Item} (phrase : Program.Phrase (some item) text)
    (folded : Folded text) (unmarked : Unmarked text) : item.Legible := by
  cases phrase with
  | @declaration row type name qualifier spelled typeWord nameWord =>
      have part : row <:+: row ++ [';'] := (List.prefix_append row _).isInfix
      have legible : ∀ token ∈ [qualifier.keyword, type, name], Token.Legible token := by
        intro token mem
        exact legible_of_spells spelled (folded.of_infix part) (unmarked.of_infix part) mem
      have typeLegible := legible type (by simp)
      have nameLegible := legible name (by simp)
      exact ⟨plain_of_word (typeLegible.isToken.word typeWord) typeLegible.unmarked,
        plain_of_word (nameLegible.isToken.word nameWord) nameLegible.unmarked⟩
  | @function header params gap body returnType name spelled noQualifier noStray noPrecision
      paramsBalance blank bodyBalance =>
      have headerPart : header <:+:
          header ++ '(' :: (params ++ ')' :: (gap ++ '{' :: (body ++ ['}']))) :=
        (List.prefix_append header _).isInfix
      have paramsPart : Text.trimStart params <:+:
          header ++ '(' :: (params ++ ')' :: (gap ++ '{' :: (body ++ ['}']))) :=
        (Text.trimStart_suffix params).isInfix.trans
          ⟨header ++ ['('], ')' :: (gap ++ '{' :: (body ++ ['}'])), by simp⟩
      have bodyPart : Text.trim body <:+:
          header ++ '(' :: (params ++ ')' :: (gap ++ '{' :: (body ++ ['}']))) :=
        (Text.trim_infix body).trans
          ⟨header ++ '(' :: (params ++ ')' :: (gap ++ ['{'])), ['}'], by simp⟩
      have legible : ∀ token ∈ [returnType, name], Token.Legible token := by
        intro token mem
        exact legible_of_spells spelled (folded.of_infix headerPart)
          (unmarked.of_infix headerPart) mem
      refine ⟨?_, by rw [(folded.of_infix paramsPart).fold_eq, Text.trimStart_trimStart]⟩
      exact
        { returnType := legible returnType (by simp)
          name := legible name (by simp)
          noQualifier, noStray, noPrecision
          paramsBalance := balanced_trimStart parentheses paramsBalance
          paramsUnmarked := unmarked.of_infix paramsPart
          bodyBalance := balanced_trim braces bodyBalance
          bodyUnmarked := unmarked.of_infix bodyPart }

/-- **Everything that a prepared text without marks states is legible.** -/
theorem legible_of_sequence {items : List Item} (sequence : Program.Sequence items text)
    (folded : Folded text) (unmarked : Unmarked text) : ∀ item ∈ items, item.Legible := by
  intro item mem
  obtain ⟨part, phrase, within⟩ := sequence.exists_phrase mem
  exact legible_of_phrase phrase (folded.of_infix within) (unmarked.of_infix within)

/-- A program whose parts can be written down and read again. -/
structure Program.Legible (program : Program) : Prop where
  declarations : ∀ qualifier, ∀ declaration ∈ program.declarations qualifier, declaration.IsPlain
  functions : ∀ function ∈ program.functions, function.Legible
  params : ∀ function ∈ program.functions, Text.trimStart (fold function.params) = function.params

theorem legible_of_parse {program : Program} (parsed : Program.parse text = .ok program)
    (folded : Folded text) (unmarked : Unmarked text) : program.Legible := by
  obtain ⟨items, sequence, lists, _⟩ := Program.states_of_parse_eq_ok parsed
  have legible := legible_of_sequence sequence folded unmarked
  have function : ∀ function ∈ program.functions, Item.Legible (.function function) :=
    fun function mem => legible _ (lists.mem_functions_iff.mp mem)
  exact ⟨fun qualifier declaration mem => legible _ (lists.mem_declarations_iff.mp mem),
    fun definition mem => (function definition mem).1,
    fun definition mem => (function definition mem).2⟩

end Inherited

/-! ### The parameters of the entry function -/

theorem plain_ofNat (number : Nat) : Plain '(' ')' (Text.ofNat number) := by
  intro c mem
  have digit : c.isDigit = true := Nat.isDigit_of_mem_toDigits (by decide) (by decide) mem
  refine ⟨⟨?_, ?_, ?_, ?_⟩, ?_, ?_⟩ <;>
  · rintro rfl
    exact absurd digit (by decide)

section Params

variable {settings : Settings} {stage : Stage}

theorem plain_attributeParam {declaration : Declaration}
    (plain : declaration.IsPlain) :
    Plain '(' ')' (Listing.attributeParam declaration) :=
  plain_append.mpr ⟨plain.1, plain_cons.mpr ⟨by decide, plain.2⟩⟩

theorem plain_uniformParam {declaration : Declaration}
    (plain : declaration.IsPlain) :
    Plain '(' ')' (Listing.uniformParam declaration) :=
  plain_append.mpr ⟨plain_append.mpr ⟨by decide, plain.1⟩, plain_cons.mpr ⟨by decide, plain.2⟩⟩

theorem plain_uniformParams {samplerType : Text} {declarations : List Declaration}
    (plain : ∀ declaration ∈ declarations, declaration.IsPlain)
    (nextUnit : Nat) :
    ∀ param ∈ Listing.uniformParams samplerType nextUnit declarations, Plain '(' ')' param := by
  induction declarations generalizing nextUnit with
  | nil => exact fun param mem => absurd mem List.not_mem_nil
  | cons declaration declarations ih =>
      have first := plain_uniformParam (plain declaration List.mem_cons_self)
      have others := fun unit => ih (fun other mem => plain other (List.mem_cons_of_mem _ mem)) unit
      intro param mem
      rw [Listing.uniformParams] at mem
      split at mem
      · rcases List.mem_cons.mp mem with rfl | mem
        · exact plain_append.mpr ⟨plain_append.mpr ⟨first, by decide⟩, plain_ofNat nextUnit⟩
        · exact others _ param mem
      · rcases List.mem_cons.mp mem with rfl | mem
        · exact first
        · exact others _ param mem

theorem plain_varyingParam {declaration : Declaration}
    (plain : declaration.IsPlain) (slot : Nat) :
    Plain '(' ')' (Listing.varyingParam stage declaration slot) := by
  have direction : Plain '(' ')' stage.varyingDirection := by cases stage <;> decide
  have space : Neutral ' ' ∧ ' ' ≠ '(' ∧ ' ' ≠ ')' := by decide
  refine plain_append.mpr ⟨plain_append.mpr ⟨?_, by decide⟩, plain_ofNat slot⟩
  exact plain_append.mpr ⟨plain_append.mpr ⟨plain.1, plain_cons.mpr ⟨space, direction⟩⟩,
    plain_cons.mpr ⟨space, plain.2⟩⟩

theorem plain_positionParams (position : Plain '(' ')' settings.positionOutput) :
    ∀ param ∈ Listing.positionParams settings stage, Plain '(' ')' param := by
  intro param mem
  cases stage with
  | fragment => exact absurd mem List.not_mem_nil
  | vertex =>
      obtain rfl := List.mem_singleton.mp mem
      exact plain_append.mpr ⟨plain_append.mpr ⟨by decide, plain_cons.mpr ⟨by decide, position⟩⟩,
        by decide⟩

/-- No parameter of the entry function has parentheses or marks. -/
theorem plain_params (position : Plain '(' ')' settings.positionOutput) {program : Program}
    (plain : ∀ qualifier, ∀ declaration ∈ program.declarations qualifier,
      declaration.IsPlain) :
    ∀ param ∈ Listing.params settings stage program, Plain '(' ')' param := by
  intro param mem
  simp only [Listing.params, List.mem_append, List.mem_map, List.mem_mapIdx] at mem
  rcases mem with ((⟨declaration, mem, rfl⟩ | mem) | mem) | ⟨slot, inside, rfl⟩
  · exact plain_attributeParam (plain .attribute declaration mem)
  · exact plain_uniformParams (plain .uniform) 0 param mem
  · exact plain_positionParams position param mem
  · exact plain_varyingParam (plain .varying _ (List.getElem_mem inside)) slot

theorem plain_paramLines {indent : Text} (plainIndent : Plain '(' ')' indent) {params : List Text}
    (plain : ∀ param ∈ params, Plain '(' ')' param) :
    Plain '(' ')' (Listing.paramLines indent params) := by
  induction params with
  | nil => exact (by decide : Plain '(' ')' ['\n'])
  | cons param params ih =>
      have first := plain param List.mem_cons_self
      have others := ih fun other mem => plain other (List.mem_cons_of_mem _ mem)
      cases params with
      | nil => exact plain_append.mpr ⟨plain_append.mpr ⟨plainIndent, first⟩, by decide⟩
      | cons next params =>
          refine plain_append.mpr ⟨plain_append.mpr ⟨?_, by decide⟩, others⟩
          exact plain_append.mpr ⟨plainIndent, first⟩

end Params

/-! ### Functions as a listing writes them -/

/-- A function with its body on lines of its own; `between` stands before the parameters. -/
def Listing.definition (between : Text) (function : Function) : Text :=
  function.returnType ++ ([' '] ++ (function.name ++ (between ++ '(' :: (function.params ++ ')' ::
    (['\n'] ++ '{' :: (['\n'] ++ function.body ++ ['\n'] ++ ['}']))))))

/-- The function as it is read from a folded text. -/
def Function.reread (function : Function) : Function :=
  { function with
    params := Text.trimStart (fold function.params)
    body := Text.trim (fold function.body) }

section Definitions

variable {function : Function} {gap between rest : Text}

/-- A definition is read as the function that it writes. -/
theorem phrase_definition (legible : function.Legible) (spacing : AllSpacing gap)
    (spacingBetween : AllSpacing between) :
    Program.Phrase (some (.function function.reread))
      (fold (gap ++ Listing.definition between function)) := by
  have space : AllSpacing [' '] := by decide
  have lineEnd : AllSpacing ['\n'] := by decide
  have header : Spells [function.returnType, function.name]
      (squeeze false (gap ++ (function.returnType ++ ([' '] ++ (function.name ++ between))))) := by
    refine spells_squeeze spacing legible.returnType.isToken legible.returnType.solid
      (endsWord_squeeze (by decide) space _) ?_
    exact spells_squeeze space legible.name.isToken legible.name.solid
      (endsWord_squeeze_of_spacing spacingBetween) (.blanks (allBlank_squeeze _ spacingBetween))
  have bodyLines : Balanced '{' '}' (['\n'] ++ function.body ++ ['\n']) := by
    refine legible.bodyBalance.of_brackets (by decide) ?_
    have none : brackets '{' '}' ['\n'] = [] := rfl
    rw [brackets_append, brackets_append, none, List.nil_append, List.append_nil]
  have phrase := phrase_fold_function header legible.noQualifier legible.noStray
    legible.noPrecision legible.paramsBalance lineEnd bodyLines
  rw [trim_fold_append_append lineEnd lineEnd] at phrase
  simpa [Listing.definition, Function.reread] using phrase

/-- A definition ends in a brace, where a folded text can be cut. -/
theorem fold_definition_append :
    fold (gap ++ (Listing.definition between function ++ rest)) =
      fold (gap ++ Listing.definition between function) ++ fold rest := by
  obtain ⟨front, ends⟩ : ∃ front, gap ++ Listing.definition between function = front ++ ['}'] :=
    ⟨gap ++ (function.returnType ++ ([' '] ++ (function.name ++ (between ++ '(' ::
      (function.params ++ ')' :: (['\n'] ++ '{' :: (['\n'] ++ function.body ++ ['\n']))))))),
      by simp [Listing.definition]⟩
  rw [← List.append_assoc, ends, List.append_assoc, List.singleton_append,
    fold_append_cons (by decide), fold_append_singleton (by decide), List.append_assoc,
    List.singleton_append]

/-- A definition in front of a text is the first function that is read. -/
theorem sequence_definition {items : List Item} (legible : function.Legible)
    (spacing : AllSpacing gap) (spacingBetween : AllSpacing between)
    (others : Program.Sequence items (fold rest)) :
    Program.Sequence (.function function.reread :: items)
      (fold (gap ++ (Listing.definition between function ++ rest))) := by
  rw [fold_definition_append]
  exact .phrase (phrase_definition legible spacing spacingBetween) others

theorem unmarked_definition (legible : function.Legible) (spacingBetween : AllSpacing between)
    (unmarked : Unmarked rest) : Unmarked (Listing.definition between function ++ rest) := by
  have neutralBetween : ∀ c ∈ between, Neutral c := by
    intro c mem
    exact neutral_of_spacing (spacingBetween c mem)
  have paren : Unmarked (between ++ '(' :: (function.params ++ ')' :: '\n' :: '{' :: '\n' ::
      (function.body ++ '\n' :: '}' :: rest))) := by
    rw [unmarked_append neutralBetween, unmarked_cons (by decide), unmarked_append_cons (by decide),
      unmarked_cons (by decide), unmarked_cons (by decide), unmarked_cons (by decide),
      unmarked_append_cons (by decide), unmarked_cons (by decide)]
    exact ⟨legible.paramsUnmarked, legible.bodyUnmarked, unmarked⟩
  -- Whatever stands between them, a neutral character follows the name.
  have named : Unmarked (function.name ++ (between ++ '(' :: (function.params ++ ')' :: '\n' ::
      '{' :: '\n' :: (function.body ++ '\n' :: '}' :: rest)))) := by
    cases between with
    | nil =>
        exact (unmarked_append_cons (by decide)).mpr
          ⟨legible.name.unmarked, (unmarked_cons (by decide)).mp paren⟩
    | cons c between =>
        have neutral := neutralBetween c List.mem_cons_self
        exact (unmarked_append_cons neutral).mpr
          ⟨legible.name.unmarked, (unmarked_cons neutral).mp paren⟩
  have whole := (unmarked_append_cons (c := ' ') (by decide)).mpr
    ⟨legible.returnType.unmarked, named⟩
  simpa [Listing.definition] using whole

end Definitions

/-! ### Listings -/

/-- Settings whose rules and names leave the functions of a listing legible. -/
structure Settings.IsGentle (settings : Settings) : Prop where
  rules : ∀ rule ∈ settings.rules, rule.IsGentle settings.indent
  indent : Plain '(' ')' settings.indent
  indentBraces : Plain '{' '}' settings.indent
  position : Plain '(' ')' settings.positionOutput

theorem Settings.standard_isGentle (mode : Substitution.Mode) :
    { Settings.standard with mode }.IsGentle where
  rules := Rule.standard_isGentle
  indent := (by decide : Plain '(' ')' ['\t'])
  indentBraces := (by decide : Plain '{' '}' ['\t'])
  position := by
    have name : { Settings.standard with mode }.positionOutput = "v_position".toList := by
      cases mode <;> decide
    rw [name]
    decide

/-- The function with its body edited. -/
def Function.edited (settings : Settings) (function : Function) : Function :=
  { function with body := Listing.formatBody settings function.body }

/-- The entry function as a listing writes it. -/
def Listing.entryFunction (settings : Settings) (stage : Stage) (program : Program) (body : Text) :
    Function where
  name := "main".toList
  returnType := stage.entryType
  params := '\n' :: (paramLines settings.indent (params settings stage program) ++ settings.indent)
  body := formatBody settings body

/-- A word that makes no marks is legible. -/
theorem legible_of_neutral {word : Text} (isWord : Word word)
    (solid : ∀ c ∈ word, isSpacing c = false) (neutral : ∀ c ∈ word, Neutral c) :
    Token.Legible word :=
  ⟨Or.inl isWord, solid, .of_neutral neutral⟩

theorem legible_main : Token.Legible "main".toList :=
  legible_of_neutral ⟨by decide, by decide, by decide⟩ (by decide) (by decide)

theorem legible_entryType (stage : Stage) : Token.Legible stage.entryType := by
  cases stage <;> exact legible_of_neutral ⟨by decide, by decide, by decide⟩ (by decide) (by decide)

theorem entryType_ne_keyword (stage : Stage) (qualifier : Qualifier) :
    stage.entryType ≠ qualifier.keyword := by
  cases stage <;> cases qualifier <;> decide

/-- The program that a listing is read as: no declarations, and the functions of the program in
their order with edited bodies, the entry function behind all others. -/
def Program.relisted (settings : Settings) (stage : Stage) (program : Program) (main : Function) :
    Program where
  attributes := []
  uniforms := []
  varyings := []
  functions :=
    program.helpers.map (fun helper =>
      { helper with body := Text.trim (fold (Listing.formatBody settings helper.body)) }) ++
    [{ name := "main".toList
       returnType := stage.entryType
       params := Text.trimStart (fold ('\n' :: (Listing.paramLines settings.indent
         (Listing.params settings stage program) ++ settings.indent)))
       body := Text.trim (fold (Listing.formatBody settings main.body)) }]

section Listings

variable {settings : Settings} {stage : Stage} {program : Program} {function : Function}
  {body : Text}

theorem helper_eq_definition :
    Listing.helper settings function =
      Listing.definition [' '] (function.edited settings) ++ ['\n', '\n'] := by
  simp [Listing.helper, Listing.block, Listing.definition, Function.edited]

theorem entry_eq_definition :
    Listing.entry settings stage program body =
      Listing.definition [] (Listing.entryFunction settings stage program body) ++ ['\n'] := by
  simp [Listing.entry, Listing.block, Listing.definition, Listing.entryFunction]

/-- Parameters from a prepared text do not change when they are read again. -/
theorem reread_edited (settings : Settings)
    (params : Text.trimStart (fold function.params) = function.params) :
    (function.edited settings).reread =
      { function with body := Text.trim (fold (Listing.formatBody settings function.body)) } := by
  simp only [Function.reread, Function.edited, params]

theorem relisted_eq {main : Function}
    (params : ∀ function ∈ program.functions,
      Text.trimStart (fold function.params) = function.params) :
    program.relisted settings stage main =
      { functions := program.helpers.map (fun function => (function.edited settings).reread) ++
          [(Listing.entryFunction settings stage program main.body).reread] } := by
  have same : ∀ function ∈ program.helpers, (function.edited settings).reread =
      { function with body := Text.trim (fold (Listing.formatBody settings function.body)) } := by
    intro function mem
    exact reread_edited settings (params function (List.mem_of_mem_filter mem))
  rw [List.map_congr_left same]
  rfl

theorem balanced_formatBody (gentle : settings.IsGentle) (balanced : Balanced '{' '}' body) :
    Balanced '{' '}' (Listing.formatBody settings body) := by
  refine balanced.of_brackets (by decide) ?_
  rw [Listing.formatBody, brackets_append, gentle.indentBraces.brackets_eq_nil, List.nil_append,
    Rule.brackets_applyAll gentle.rules]

theorem unmarked_formatBody (gentle : settings.IsGentle) (unmarked : Unmarked body) :
    Unmarked (Listing.formatBody settings body) :=
  gentle.indent.unmarked_append.mpr (Rule.unmarked_applyAll gentle.rules unmarked)

theorem Function.Legible.edited (gentle : settings.IsGentle) (legible : function.Legible) :
    (function.edited settings).Legible :=
  { legible with
    bodyBalance := balanced_formatBody gentle legible.bodyBalance
    bodyUnmarked := unmarked_formatBody gentle legible.bodyUnmarked }

theorem legible_entryFunction (stage : Stage) (gentle : settings.IsGentle)
    (plain : ∀ qualifier, ∀ declaration ∈ program.declarations qualifier, declaration.IsPlain)
    (bodyBalance : Balanced '{' '}' body) (bodyUnmarked : Unmarked body) :
    (Listing.entryFunction settings stage program body).Legible := by
  have params : Plain '(' ')' (Listing.entryFunction settings stage program body).params :=
    plain_cons.mpr ⟨by decide, plain_append.mpr
      ⟨plain_paramLines gentle.indent (plain_params gentle.position plain), gentle.indent⟩⟩
  have noStray : stage.entryType ≠ [';'] := by cases stage <;> decide
  have noPrecision : stage.entryType ≠ Program.precisionKeyword := by cases stage <;> decide
  exact
    { returnType := legible_entryType stage
      name := legible_main
      noQualifier := entryType_ne_keyword stage
      noStray, noPrecision
      paramsBalance := params.balanced (by decide)
      paramsUnmarked := .of_neutral fun c mem => (params c mem).1
      bodyBalance := balanced_formatBody gentle bodyBalance
      bodyUnmarked := unmarked_formatBody gentle bodyUnmarked }

/-- **The functions of a listing are read again,** those in front of the entry function in their
order. -/
theorem sequence_listing (gentle : settings.IsGentle) {functions : List Function}
    (legible : ∀ function ∈ functions, function.Legible) {last : Function}
    (lastLegible : last.Legible) {gap : Text} (spacing : AllSpacing gap) :
    Program.Sequence
      ((functions.map (fun function => (function.edited settings).reread) ++ [last.reread]).map
        Item.function)
      (fold (gap ++ (functions.flatMap (Listing.helper settings) ++
        (Listing.definition [] last ++ ['\n'])))) := by
  induction functions generalizing gap with
  | nil =>
      have blank : Program.Sequence [] (fold ['\n']) := .blanks (by decide)
      exact sequence_definition lastLegible spacing (by decide) blank
  | cons function functions ih =>
      have lineEnds : AllSpacing ['\n', '\n'] := by decide
      have others := ih (fun other mem => legible other (List.mem_cons_of_mem _ mem)) lineEnds
      rw [List.flatMap_cons, helper_eq_definition, List.append_assoc, List.append_assoc]
      have first := (legible function List.mem_cons_self).edited gentle
      exact sequence_definition first spacing (by decide) others

theorem unmarked_listing (gentle : settings.IsGentle) {functions : List Function}
    (legible : ∀ function ∈ functions, function.Legible) {last : Function}
    (lastLegible : last.Legible) :
    Unmarked (functions.flatMap (Listing.helper settings) ++
      (Listing.definition [] last ++ ['\n'])) := by
  induction functions with
  | nil => exact unmarked_definition lastLegible (by decide) (.of_neutral (by decide))
  | cons function functions ih =>
      have others := ih fun other mem => legible other (List.mem_cons_of_mem _ mem)
      rw [List.flatMap_cons, helper_eq_definition, List.append_assoc, List.append_assoc]
      have first := (legible function List.mem_cons_self).edited gentle
      refine unmarked_definition first (by decide) ?_
      exact (unmarked_append (by decide)).mpr others

/-- The banner is a line comment, of which the line end stays. -/
theorem strip_banner_append {rest : Text} (unmarked : Unmarked rest) :
    strip (Listing.banner stage ++ rest) = '\n' :: rest := by
  have line : ∃ text, '\n' ∉ text ∧ Listing.banner stage = lineComment text := by
    cases stage with
    | vertex => exact ⟨" Auto-generated from GLSL vertex shader".toList, by decide, by decide⟩
    | fragment => exact ⟨" Auto-generated from GLSL fragment shader".toList, by decide, by decide⟩
  obtain ⟨text, oneLine, eq⟩ := line
  rw [eq, strip_line oneLine, strip_of_unmarked unmarked]

/-- No function in front of the entry function is an entry point. -/
theorem countP_isMain_listing {last : Function} :
    (program.helpers.map (fun function => (function.edited settings).reread) ++ [last]).countP
      Function.isMain ≤ 1 := by
  have none : (program.helpers.map fun function => (function.edited settings).reread).countP
      Function.isMain = 0 := by
    rw [List.countP_eq_zero]
    intro function mem
    obtain ⟨helper, listed, rfl⟩ := List.mem_map.mp mem
    have other : helper.isMain = false := by simpa using List.of_mem_filter listed
    have same : (helper.edited settings).reread.isMain = helper.isMain := rfl
    rw [same, other]
    exact Bool.false_ne_true
  rw [List.countP_append, none, Nat.zero_add]
  exact List.countP_le_length

theorem lists_functions (functions : List Function) :
    Program.Lists { functions } (functions.map Item.function) := by
  refine ⟨fun qualifier => ?_, ?_⟩
  · have none : Item.declared? qualifier ∘ Item.function = fun _ => none := rfl
    rw [List.filterMap_map, none, List.filterMap_none]
    cases qualifier <;> rfl
  · have all : Item.defined? ∘ Item.function = some := rfl
    rw [List.filterMap_map, all, List.filterMap_some]

theorem mem_functions_of_entryPoint {main : Function} (entry : program.entryPoint = .ok main) :
    main ∈ program.functions := by
  rw [Program.entryPoint] at entry
  split at entry
  · next found =>
      cases entry
      exact List.mem_of_find?_eq_some found
  · cases entry

/-- A listing of a legible program is read as its functions. -/
theorem parse_of_generate (gentle : settings.IsGentle) (legible : program.Legible)
    {output : Text} (generated : Listing.generate settings stage program = .ok output) :
    ∃ main, program.entryPoint = .ok main ∧
      Program.parse (fold (strip output)) = .ok (program.relisted settings stage main) := by
  cases entry : program.entryPoint with
  | error fault =>
      rw [Listing.generate, entry] at generated
      cases generated
  | ok main =>
      rw [Listing.generate, entry] at generated
      have whole : Listing.banner stage ++ program.helpers.flatMap (Listing.helper settings) ++
          Listing.entry settings stage program main.body = output := Except.ok.inj generated
      have mainLegible := legible.functions main (mem_functions_of_entryPoint entry)
      have last := legible_entryFunction stage gentle legible.declarations
        mainLegible.bodyBalance mainLegible.bodyUnmarked
      have helpers : ∀ function ∈ program.helpers, function.Legible := by
        intro function mem
        exact legible.functions function (List.mem_of_mem_filter mem)
      have lineEnd : AllSpacing ['\n'] := by decide
      have sequence := sequence_listing gentle helpers last lineEnd
      refine ⟨main, rfl, ?_⟩
      rw [← whole, List.append_assoc, entry_eq_definition,
        strip_banner_append (unmarked_listing gentle helpers last), relisted_eq legible.params]
      exact Program.States.parse_eq_ok ⟨_, sequence, lists_functions _, countP_isMain_listing⟩

end Listings

/-! ### Conversions -/

open Substitution in
/-- **What a conversion gives is read as the functions of its source.** Where the prepared text
has no marks, the functions of the listing are those of the program that the text states, with
their bodies edited, and one `main` of the stage behind the others. -/
theorem parse_listing (mode : Mode) (stage : Stage) (source : Text) {program : Program}
    {output : Text} (unmarked : Unmarked (Source.prepare Table.glslToCg mode source))
    (converted : Conversion.convert { Settings.standard with mode } stage source = .ok output)
    (parsed : Program.parse (Source.prepare Table.glslToCg mode source) = .ok program) :
    ∃ main, program.entryPoint = .ok main ∧
      Program.parse (fold (strip output)) =
        .ok (program.relisted { Settings.standard with mode } stage main) := by
  have legible := legible_of_parse parsed (folded_fold _) unmarked
  have listed := convert_of_parse { Settings.standard with mode } stage parsed
  exact parse_of_generate (Settings.standard_isGentle mode) legible (listed.symm.trans converted)

/-- A source in which a delimiter names a function, and what becomes of it. -/
def Listing.sampleSource : Text :=
  "vec2 *(vec2 v)\x7bv;\x7d void main()\x7bgl_FragColor = v;  \x7d".toList

def Listing.sampleProgram : Program where
  functions := [
    ⟨['*'], "float2".toList, "float2 v".toList, "v;".toList⟩,
    ⟨"main".toList, "void".toList, [], "gl_FragColor = v;".toList⟩]

def Listing.sampleText : Text :=
  "// Auto-generated from GLSL fragment shader\n".toList
    ++ "float2 * (float2 v)\n\x7b\n\tv;\n\t\n\x7d\n\n".toList
    ++ "float4 main(\n\n\t)\n\x7b\n\treturn v;\n\t\n\x7d\n".toList

theorem parse_listing_sample :
    Unmarked (Source.prepare .glslToCg .substring Listing.sampleSource) ∧
      Conversion.convert { Settings.standard with mode := .substring } .fragment
        Listing.sampleSource = .ok Listing.sampleText ∧
      Program.parse (Source.prepare .glslToCg .substring Listing.sampleSource) =
        .ok Listing.sampleProgram ∧
      ∃ main, Listing.sampleProgram.entryPoint = .ok main ∧
        Program.parse (fold (strip Listing.sampleText)) =
          .ok (Listing.sampleProgram.relisted { Settings.standard with mode := .substring }
            .fragment main) := by
  have prepared : Source.prepare .glslToCg .substring Listing.sampleSource =
      "float2 *(float2 v)\x7bv;\x7d void main()\x7bgl_FragColor = v; \x7d".toList := by
    decide +kernel
  have unmarked : Unmarked (Source.prepare .glslToCg .substring Listing.sampleSource) := by
    rw [prepared]
    decide
  have parsed : Program.parse (Source.prepare .glslToCg .substring Listing.sampleSource) =
      .ok Listing.sampleProgram := by
    rw [prepared]
    decide +kernel
  have generated : Listing.generate Settings.standard .fragment Listing.sampleProgram =
      .ok Listing.sampleText := by
    decide +kernel
  have converted := (convert_of_parse Settings.standard .fragment parsed).trans generated
  exact ⟨unmarked, converted, parsed,
    parse_listing .substring .fragment Listing.sampleSource unmarked converted parsed⟩

end CrossShade
