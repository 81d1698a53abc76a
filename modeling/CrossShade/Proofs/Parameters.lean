import CrossShade.Listing
import CrossShade.Proofs.Grammar

/-!
What the parameter list of the entry function tells about a program. Nothing separates the
categories in the list, and types and names are any words, `uniform`, `in` and `:` among them.
The entries are told apart by the words they are cut into at their spaces: an attribute has two
words, a uniform three, and an entry that is bound to semantics ends in a colon and their name.

* `params_determine`: programs with the same parameter list have the same declarations.
* `params_bind`: where the entry of each declaration stands, and what it is bound to.
-/

namespace CrossShade

theorem Text.ofNat_injective : Function.Injective Text.ofNat := by
  intro first second same
  calc
    first = Nat.ofDigitChars 10 (Text.ofNat first) 0 := Nat.ofDigitChars_ten_toDigits.symm
    _ = Nat.ofDigitChars 10 (Text.ofNat second) 0 := by rw [same]
    _ = second := Nat.ofDigitChars_ten_toDigits

theorem Text.not_space_ofNat (number : Nat) : ' ' ∉ Text.ofNat number := by
  intro mem
  have digit : ' '.isDigit = true := Nat.isDigit_of_mem_toDigits (by decide) (by decide) mem
  exact absurd digit (by decide)

/-! ### Declarations in words -/

/-- A text that stays in one piece when an entry is cut at its spaces. -/
def Text.IsWord (text : Text) : Prop :=
  text ≠ [] ∧ ' ' ∉ text

instance (text : Text) : Decidable text.IsWord :=
  inferInstanceAs (Decidable (_ ∧ _))

/-- The type and the name of the declaration are words. -/
def Declaration.HasWords (declaration : Declaration) : Prop :=
  declaration.type.IsWord ∧ declaration.name.IsWord

instance (declaration : Declaration) : Decidable declaration.HasWords :=
  inferInstanceAs (Decidable (_ ∧ _))

/-- All types and names that the program declares are words. -/
def Program.HasWords (program : Program) : Prop :=
  ∀ qualifier, ∀ declaration ∈ program.declarations qualifier, declaration.HasWords

instance (program : Program) : Decidable program.HasWords :=
  inferInstanceAs (Decidable (∀ _, _))

theorem Token.IsToken.isWord {token : Text} (isToken : Token.IsToken token) : token.IsWord :=
  ⟨isToken.nonempty, isToken.not_space⟩

/-- The reader takes words only. -/
theorem Program.hasWords_of_parse {text : Text} {program : Program}
    (parsed : Program.parse text = .ok program) : program.HasWords := by
  intro qualifier declaration mem
  obtain ⟨items, sequence, lists, -⟩ := Program.states_of_parse_eq_ok parsed
  obtain ⟨part, phrase, -⟩ := sequence.exists_phrase (lists.mem_declarations_iff.mp mem)
  cases phrase with
  | declaration spelled typeWord nameWord =>
      exact ⟨(spelled.mem (by simp)).1.isWord, (spelled.mem (by simp)).1.isWord⟩

end CrossShade

namespace CrossShade.Listing

/-! ### Entries and semantics -/

/-- What the entry function's parameters are bound to. -/
inductive Semantics where
  | position
  | texUnit (number : Nat)
  | texCoord (number : Nat)
deriving DecidableEq, Repr

namespace Semantics

/-- The name of the semantics. -/
def spelling : Semantics → Text
  | position => "POSITION".toList
  | texUnit number => "TEXUNIT".toList ++ Text.ofNat number
  | texCoord number => "TEXCOORD".toList ++ Text.ofNat number

theorem spelling_injective : Function.Injective spelling := by
  intro first second same
  cases first <;> cases second
  case position.position => rfl
  case texUnit.texUnit => exact congrArg _ (Text.ofNat_injective (List.append_cancel_left same))
  case texCoord.texCoord => exact congrArg _ (Text.ofNat_injective (List.append_cancel_left same))
  -- The first four letters tell the kinds apart.
  all_goals cases congrArg (List.take 4) same

theorem not_space_spelling (semantics : Semantics) : ' ' ∉ semantics.spelling := by
  cases semantics with
  | position => decide
  | texUnit number =>
      exact fun mem => (List.mem_append.mp mem).elim (by decide) (Text.not_space_ofNat number)
  | texCoord number =>
      exact fun mem => (List.mem_append.mp mem).elim (by decide) (Text.not_space_ofNat number)

end Semantics

/-- A parameter with its semantics. -/
def bound (param : Text) (semantics : Semantics) : Text :=
  param ++ (" : ".toList ++ semantics.spelling)

/-- The entry ends in the semantics. -/
def BoundTo (entry : Text) (semantics : Semantics) : Prop :=
  " : ".toList ++ semantics.spelling <:+ entry

instance (entry : Text) (semantics : Semantics) : Decidable (BoundTo entry semantics) :=
  inferInstanceAs (Decidable (_ <:+ _))

/-- The entry, cut at its spaces. -/
def words (entry : Text) : List Text :=
  entry.splitOn ' '

section Words

variable {entry param : Text} {semantics other : Semantics} {declaration : Declaration}

theorem words_append_space (front back : Text) :
    words (front ++ ' ' :: back) = words front ++ words back :=
  List.splitOn_append_cons_self front back

theorem words_of_not_space {word : Text} (solid : ' ' ∉ word) : words word = [word] :=
  List.splitOn_eq_singleton solid

theorem words_bound (param : Text) (semantics : Semantics) :
    words (bound param semantics) = words param ++ [[':'], semantics.spelling] := by
  have cut : bound param semantics = param ++ ' ' :: ([':'] ++ ' ' :: semantics.spelling) := rfl
  have colon : words [':'] = [[':']] := words_of_not_space (by decide)
  rw [cut, words_append_space, words_append_space, colon,
    words_of_not_space semantics.not_space_spelling]
  rfl

theorem words_attributeParam (hasWords : declaration.HasWords) :
    words (attributeParam declaration) = [declaration.type, declaration.name] := by
  rw [attributeParam, words_append_space, words_of_not_space hasWords.1.2,
    words_of_not_space hasWords.2.2]
  rfl

theorem words_uniformParam (hasWords : declaration.HasWords) :
    words (uniformParam declaration) =
      ["uniform".toList, declaration.type, declaration.name] := by
  have cut : uniformParam declaration = "uniform".toList ++ ' ' :: attributeParam declaration := rfl
  rw [cut, words_append_space, words_of_not_space (by decide), words_attributeParam hasWords]
  rfl

theorem boundTo_iff : BoundTo entry semantics ↔ ∃ param, entry = bound param semantics :=
  exists_congr fun _ => eq_comm

/-- An entry has no other semantics than those it was given. -/
@[simp] theorem boundTo_bound_iff : BoundTo (bound param semantics) other ↔ semantics = other := by
  constructor
  · intro ends
    obtain ⟨front, same⟩ := boundTo_iff.mp ends
    have cut := congrArg words same
    rw [words_bound, words_bound] at cut
    have last := List.append_inj_right' cut rfl
    exact Semantics.spelling_injective (List.cons.inj (List.cons.inj last).2).1
  · rintro rfl
    exact boundTo_iff.mpr ⟨param, rfl⟩

/-- An attribute has too few words to be bound to anything. -/
theorem not_boundTo_attributeParam (hasWords : declaration.HasWords) :
    ¬ BoundTo (attributeParam declaration) semantics := by
  intro ends
  obtain ⟨front, same⟩ := boundTo_iff.mp ends
  have cut := congrArg words same
  rw [words_attributeParam hasWords, words_bound] at cut
  have nonempty : words front ≠ [] := List.splitOn_ne_nil ' ' front
  have short : (words front).length + 2 = 2 := by simpa using (congrArg List.length cut).symm
  exact nonempty (List.eq_nil_of_length_eq_zero (by omega))

/-- A uniform alone could be taken for bound only if its type were a colon. -/
theorem not_boundTo_uniformParam (hasWords : declaration.HasWords)
    (typed : declaration.type ≠ [':']) : ¬ BoundTo (uniformParam declaration) semantics := by
  intro ends
  obtain ⟨front, same⟩ := boundTo_iff.mp ends
  have cut := congrArg words same
  rw [words_uniformParam hasWords, words_bound] at cut
  have parts : ["uniform".toList] ++ [declaration.type, declaration.name] =
      words front ++ [[':'], semantics.spelling] := cut
  have last := List.append_inj_right' parts rfl
  exact typed (List.cons.inj last).1

end Words

/-! ### The entries of each category -/

section Entries

variable {stage : Stage} {declaration : Declaration}

/-- A uniform in the parameter list, bound to the texture unit if it is of the sampler type. -/
def uniformEntry (samplerType : Text) (declaration : Declaration) (unit : Nat) : Text :=
  if declaration.type = samplerType then bound (uniformParam declaration) (.texUnit unit)
  else uniformParam declaration

/-- The unit of a sampler is the number of samplers before it, counted from `nextUnit` on. -/
theorem uniformParams_eq_mapIdx (samplerType : Text) (nextUnit : Nat)
    (declarations : List Declaration) :
    uniformParams samplerType nextUnit declarations =
      declarations.mapIdx fun place declaration =>
        uniformEntry samplerType declaration
          (nextUnit + (declarations.take place).countP (·.type = samplerType)) := by
  induction declarations generalizing nextUnit with
  | nil => rfl
  | cons declaration rest ih =>
      have later : ∀ place, nextUnit +
          ((declaration :: rest).take (place + 1)).countP (·.type = samplerType) =
            nextUnit + (if declaration.type = samplerType then 1 else 0) +
              (rest.take place).countP (·.type = samplerType) := by
        intro place
        simp only [List.take_succ_cons, List.countP_cons, decide_eq_true_eq]
        omega
      rw [List.mapIdx_cons, uniformParams]
      simp only [later]
      split
      · next sampler =>
          rw [ih, uniformEntry, if_pos sampler]
          congr 1
          exact List.append_assoc (uniformParam declaration) " : TEXUNIT".toList
            (Text.ofNat nextUnit)
      · next other => rw [ih, uniformEntry, if_neg other, Nat.add_zero]

/-- A uniform is bound to its texture unit if it is a sampler, and to nothing else. -/
theorem boundTo_uniformEntry_iff {samplerType : Text} {unit : Nat} {semantics : Semantics}
    (hasWords : declaration.HasWords) (typed : declaration.type ≠ [':']) :
    BoundTo (uniformEntry samplerType declaration unit) semantics ↔
      declaration.type = samplerType ∧ semantics = .texUnit unit := by
  rw [uniformEntry]
  split
  · next sampler => simp [sampler, eq_comm]
  · next other => simp [other, not_boundTo_uniformParam hasWords typed]

/-- A varying in the parameter list, without its semantics. -/
def directed (stage : Stage) (declaration : Declaration) : Text :=
  declaration.type ++ ' ' :: stage.varyingDirection ++ ' ' :: declaration.name

theorem varyingParam_eq_bound (stage : Stage) (declaration : Declaration) (slot : Nat) :
    varyingParam stage declaration slot = bound (directed stage declaration) (.texCoord slot) :=
  List.append_assoc (directed stage declaration) " : TEXCOORD".toList (Text.ofNat slot)

theorem words_directed (hasWords : declaration.HasWords) :
    words (directed stage declaration) =
      [declaration.type, stage.varyingDirection, declaration.name] := by
  have direction : ' ' ∉ stage.varyingDirection := by cases stage <;> decide
  rw [directed, words_append_space, words_append_space, words_of_not_space hasWords.1.2,
    words_of_not_space direction, words_of_not_space hasWords.2.2]
  rfl

/-- The entry of a declaration, by its category and its place in there. -/
def entryOf (settings : Settings) (stage : Stage) (program : Program) :
    Qualifier → Nat → Declaration → Text
  | .attribute, _, declaration => attributeParam declaration
  | .uniform, place, declaration =>
      uniformEntry settings.samplerType declaration
        ((program.uniforms.take place).countP (·.type = settings.samplerType))
  | .varying, place, declaration => varyingParam stage declaration place

/-- The entries of a category. -/
def entries (settings : Settings) (stage : Stage) (program : Program) (qualifier : Qualifier) :
    List Text :=
  (program.declarations qualifier).mapIdx (entryOf settings stage program qualifier)

/-- The number of positions in the parameter list. -/
def positionCount : Stage → Nat
  | .vertex => 1
  | .fragment => 0

/-- The position in the parameter list, without its semantics. -/
def positionHead (settings : Settings) : Text :=
  "float4 ".toList ++ Stage.vertex.varyingDirection ++ ' ' :: settings.positionOutput

theorem positionParams_eq (settings : Settings) (stage : Stage) :
    positionParams settings stage =
      List.replicate (positionCount stage) (bound (positionHead settings) .position) := by
  cases stage <;> rfl

/-- The parameter list, category by category. -/
theorem params_eq (settings : Settings) (stage : Stage) (program : Program) :
    params settings stage program =
      entries settings stage program .attribute ++ (entries settings stage program .uniform ++
        (positionParams settings stage ++ entries settings stage program .varying)) := by
  have attributes : program.attributes.map attributeParam =
      entries settings stage program .attribute :=
    (List.mapIdx_eq_iff.mpr fun _ => List.getElem?_map).symm
  have uniforms : uniformParams settings.samplerType 0 program.uniforms =
      entries settings stage program .uniform := by
    rw [uniformParams_eq_mapIdx]
    simp only [Nat.zero_add]
    rfl
  rw [params, attributes, uniforms, List.append_assoc, List.append_assoc]
  rfl

end Entries

/-! ### Declarations from entries -/

/-- The declaration that an entry stands for. Two words are an attribute and three a uniform.
Five are a uniform or a varying with semantics, or the position if its name is one word. -/
def item? (entry : Text) : Option Item :=
  match words entry with
  | [type, name] => some (.declaration .attribute ⟨type, name⟩)
  | [_, type, name] => some (.declaration .uniform ⟨type, name⟩)
  | [first, second, name, _, semantics] =>
      if "TEXUNIT".toList.isPrefixOf semantics then
        some (.declaration .uniform ⟨second, name⟩)
      else if "TEXCOORD".toList.isPrefixOf semantics then
        some (.declaration .varying ⟨first, name⟩)
      else none
  | _ => none

section Items

/-- Every entry stands for its declaration. -/
theorem item?_entryOf (settings : Settings) (stage : Stage) (program : Program)
    (qualifier : Qualifier) (place : Nat) {declaration : Declaration}
    (hasWords : declaration.HasWords) :
    item? (entryOf settings stage program qualifier place declaration) =
      some (.declaration qualifier declaration) := by
  cases qualifier
  · rw [entryOf, item?, words_attributeParam hasWords]
  · rw [entryOf, uniformEntry]
    split
    · rw [item?, words_bound, words_uniformParam hasWords]
      rfl
    · rw [item?, words_uniformParam hasWords]
  · rw [entryOf, varyingParam_eq_bound, item?, words_bound, words_directed hasWords]
    rfl

/-- The position is no declaration, even if its name is cut into several words. -/
theorem item?_position (settings : Settings) :
    item? (bound (positionHead settings) .position) = none := by
  have cut : words (positionHead settings) =
      "float4".toList :: "out".toList :: words settings.positionOutput := by
    have parts : positionHead settings =
        "float4".toList ++ ' ' :: ("out".toList ++ ' ' :: settings.positionOutput) := rfl
    rw [parts, words_append_space, words_append_space]
    rfl
  obtain ⟨name, others, named⟩ :=
    List.exists_cons_of_ne_nil (List.splitOn_ne_nil ' ' settings.positionOutput)
  rw [item?, words_bound, cut, words, named]
  rcases others with _ | ⟨second, _ | ⟨third, _ | ⟨fourth, rest⟩⟩⟩ <;> rfl

/-- Entries that each stand for their declaration are read back in their order. -/
theorem filterMap_mapIdx {qualifier : Qualifier} {declarations : List Declaration}
    {entry : Nat → Declaration → Text}
    (stands : ∀ place, ∀ declaration ∈ declarations,
      item? (entry place declaration) = some (.declaration qualifier declaration)) :
    (declarations.mapIdx entry).filterMap item? = declarations.map (.declaration qualifier) := by
  induction declarations generalizing entry with
  | nil => rfl
  | cons declaration rest ih =>
      have later := ih fun place other mem => stands (place + 1) other (List.mem_cons_of_mem _ mem)
      rw [List.mapIdx_cons, List.filterMap_cons, stands 0 declaration List.mem_cons_self, later]
      rfl

theorem filterMap_entries (settings : Settings) (stage : Stage) {program : Program}
    (hasWords : program.HasWords) (qualifier : Qualifier) :
    (entries settings stage program qualifier).filterMap item? =
      (program.declarations qualifier).map (.declaration qualifier) :=
  filterMap_mapIdx fun place declaration mem =>
    item?_entryOf settings stage program qualifier place (hasWords qualifier declaration mem)

theorem filterMap_positionParams (settings : Settings) (stage : Stage) :
    (positionParams settings stage).filterMap item? = [] := by
  rw [positionParams_eq, List.filterMap_eq_nil_iff]
  intro entry mem
  rw [List.eq_of_mem_replicate mem]
  exact item?_position settings

/-- **The declarations of each category are read back from the parameter list**, in their
order. -/
theorem filterMap_params (settings : Settings) (stage : Stage) {program : Program}
    (hasWords : program.HasWords) (qualifier : Qualifier) :
    ((params settings stage program).filterMap item?).filterMap (Item.declared? qualifier) =
      program.declarations qualifier := by
  have own : ∀ declarations : List Declaration,
      (declarations.map (.declaration qualifier)).filterMap (Item.declared? qualifier) =
        declarations := by
    intro declarations
    simp [List.filterMap_map, Function.comp_def, Item.declared?]
  have others : ∀ {category}, category ≠ qualifier → ∀ declarations : List Declaration,
      (declarations.map (.declaration category)).filterMap (Item.declared? qualifier) = [] := by
    intro category differ declarations
    simp [List.filterMap_map, Function.comp_def, Item.declared?, differ]
  simp only [params_eq, List.filterMap_append, filterMap_entries settings stage hasWords,
    filterMap_positionParams, List.nil_append]
  cases qualifier
  · rw [own, others (by decide), others (by decide), List.append_nil, List.append_nil]
  · rw [own, others (by decide), others (by decide), List.nil_append, List.append_nil]
  · rw [own, others (by decide), others (by decide), List.nil_append, List.nil_append]

end Items

/-- **The parameter list determines the declarations.** Two programs that give the same list
have the same attributes, uniforms and varyings in the same order, as long as their types and
names are words; and the reader gives no other programs. -/
theorem params_determine (settings : Settings) (stage : Stage) :
    (∀ first second : Program, first.HasWords → second.HasWords →
      params settings stage first = params settings stage second →
        first.attributes = second.attributes ∧ first.uniforms = second.uniforms ∧
          first.varyings = second.varyings) ∧
      ∀ text program, Program.parse text = .ok program → program.HasWords := by
  refine ⟨?_, fun text program parsed => Program.hasWords_of_parse parsed⟩
  intro first second firstWords secondWords same
  have declarations (qualifier : Qualifier) :
      first.declarations qualifier = second.declarations qualifier := by
    rw [← filterMap_params settings stage firstWords, same,
      filterMap_params settings stage secondWords]
  exact ⟨declarations .attribute, declarations .uniform, declarations .varying⟩

/-- A program whose words look like other parts of an entry. -/
def misleadingText : Text :=
  "attribute uniform in; uniform : TEXUNIT0; uniform sampler2D out; varying uniform :;".toList

def misleading : Program where
  attributes := [⟨"uniform".toList, "in".toList⟩]
  uniforms := [⟨[':'], "TEXUNIT0".toList⟩, ⟨"sampler2D".toList, "out".toList⟩]
  varyings := [⟨"uniform".toList, [':']⟩]

theorem params_determine_misleading :
    Program.parse misleadingText = .ok misleading ∧
      ∃ other : Program, other ≠ misleading ∧ other.HasWords ∧
        params Settings.standard .vertex misleading = params Settings.standard .vertex other ∧
        misleading.attributes = other.attributes ∧ misleading.uniforms = other.uniforms ∧
          misleading.varyings = other.varyings := by
  have parsed : Program.parse misleadingText = .ok misleading := by decide +kernel
  have hasWords := (params_determine Settings.standard .vertex).2 misleadingText misleading parsed
  let other := { misleading with functions := [⟨"main".toList, "void".toList, [], []⟩] }
  have otherWords : other.HasWords := by decide
  have same : params Settings.standard .vertex misleading =
      params Settings.standard .vertex other := rfl
  exact ⟨parsed, other, by decide, otherWords, same,
    (params_determine Settings.standard .vertex).1 _ _ hasWords otherWords same⟩

/-! ### Places and slots -/

/-- Where the entries of a category begin in the parameter list. -/
def start (stage : Stage) (program : Program) : Qualifier → Nat
  | .attribute => 0
  | .uniform => program.attributes.length
  | .varying => program.attributes.length + program.uniforms.length + positionCount stage

/-- The entry of a declaration in the parameter list, by its category and its place in there. -/
def entryAt? (settings : Settings) (stage : Stage) (program : Program) (qualifier : Qualifier)
    (place : Nat) : Option Text :=
  (params settings stage program)[start stage program qualifier + place]?

section Slots

variable {settings : Settings} {stage : Stage} {program : Program}

theorem length_entries (qualifier : Qualifier) :
    (entries settings stage program qualifier).length =
      (program.declarations qualifier).length :=
  List.length_mapIdx

theorem length_positionParams : (positionParams settings stage).length = positionCount stage := by
  rw [positionParams_eq, List.length_replicate]

theorem length_params : (params settings stage program).length =
    start stage program .varying + program.varyings.length := by
  simp only [params_eq, List.length_append, length_entries, length_positionParams,
    Program.declarations, start]
  omega

/-- The entries of a category stand together, from its start on. -/
theorem exists_params_eq_append (settings : Settings) (stage : Stage) (program : Program)
    (qualifier : Qualifier) :
    ∃ before after, before.length = start stage program qualifier ∧
      params settings stage program =
        before ++ (entries settings stage program qualifier ++ after) := by
  rw [params_eq]
  cases qualifier
  · exact ⟨[], _, rfl, rfl⟩
  · exact ⟨_, _, length_entries _, rfl⟩
  · refine ⟨entries settings stage program .attribute ++
      (entries settings stage program .uniform ++ positionParams settings stage), [], ?_, ?_⟩
    · simp only [List.length_append, length_entries, length_positionParams,
        Program.declarations, start, Nat.add_assoc]
    · simp only [List.append_assoc, List.append_nil]

/-- **Every declaration has its entry at its place.** -/
theorem entryAt?_eq (qualifier : Qualifier) {place : Nat} {declaration : Declaration}
    (declared : (program.declarations qualifier)[place]? = some declaration) :
    entryAt? settings stage program qualifier place =
      some (entryOf settings stage program qualifier place declaration) := by
  have entry : (entries settings stage program qualifier)[place]? =
      some (entryOf settings stage program qualifier place declaration) := by
    rw [entries, List.getElem?_mapIdx, declared]
    rfl
  have inside : place < (entries settings stage program qualifier).length :=
    (List.getElem?_eq_some_iff.mp entry).1
  obtain ⟨before, after, first, cut⟩ := exists_params_eq_append settings stage program qualifier
  rw [entryAt?, cut, ← first, List.getElem?_append_right (Nat.le_add_right _ _),
    Nat.add_sub_cancel_left, List.getElem?_append_left inside, entry]

theorem getElem?_params_position (vertex : stage = .vertex) :
    (params settings stage program)[program.attributes.length + program.uniforms.length]? =
      some (bound (positionHead settings) .position) := by
  subst vertex
  have before : (entries settings .vertex program .attribute ++
      entries settings .vertex program .uniform).length =
        program.attributes.length + program.uniforms.length := by
    simp only [List.length_append, length_entries, Program.declarations]
  rw [params_eq, ← List.append_assoc, ← before, List.getElem?_append_right (Nat.le_refl _),
    Nat.sub_self]
  rfl

/-- Of the entries only those for the position are bound to it. -/
theorem countP_position (hasWords : program.HasWords)
    (typed : ∀ uniform ∈ program.uniforms, uniform.type ≠ [':']) :
    (params settings stage program).countP (BoundTo · .position) = positionCount stage := by
  have none : ∀ qualifier,
      (entries settings stage program qualifier).countP (BoundTo · .position) = 0 := by
    intro qualifier
    rw [List.countP_eq_zero]
    intro entry mem
    obtain ⟨place, inside, rfl⟩ := List.exists_of_mem_mapIdx mem
    have listed := List.getElem_mem inside
    have inWords := hasWords qualifier _ listed
    rw [decide_eq_true_iff]
    cases qualifier
    · exact not_boundTo_attributeParam inWords
    · intro ends
      cases ((boundTo_uniformEntry_iff inWords (typed _ listed)).mp ends).2
    · intro ends
      rw [entryOf, varyingParam_eq_bound, boundTo_bound_iff] at ends
      cases ends
  have position : (positionParams settings stage).countP (BoundTo · .position) =
      positionCount stage := by
    rw [positionParams_eq, List.countP_replicate, if_pos (by simp)]
  simp only [params_eq, List.countP_append, none, position, Nat.zero_add, Nat.add_zero]

end Slots

/-- How the parameter list of a program binds its entries. The categories follow one another,
each in the order of its declarations, with the position before the varyings. -/
structure Binds (settings : Settings) (stage : Stage) (program : Program) : Prop where
  length : (params settings stage program).length =
    start stage program .varying + program.varyings.length
  attributes : ∀ place declaration, program.attributes[place]? = some declaration →
    entryAt? settings stage program .attribute place = some (attributeParam declaration)
  /-- A uniform is bound to a texture unit if and only if it is a sampler, and its unit is the
  number of samplers before it. -/
  uniforms : ∀ place declaration, program.uniforms[place]? = some declaration →
    ∃ entry, entryAt? settings stage program .uniform place = some entry ∧
      uniformParam declaration <+: entry ∧
      ∀ number, BoundTo entry (.texUnit number) ↔
        declaration.type = settings.samplerType ∧
          number = (program.uniforms.take place).countP (·.type = settings.samplerType)
  position : stage = .vertex →
    ∃ entry, BoundTo entry .position ∧
      (params settings stage program)[program.attributes.length + program.uniforms.length]? =
        some entry
  /-- A varying is bound to the texture coordinate with the number of its place. -/
  varyings : ∀ place declaration, program.varyings[place]? = some declaration →
    ∃ entry, entryAt? settings stage program .varying place = some entry ∧
      directed stage declaration <+: entry ∧
      ∀ number, BoundTo entry (.texCoord number) ↔ number = place
  single : (params settings stage program).countP (BoundTo · .position) = positionCount stage

section Binding

variable {settings : Settings} {stage : Stage} {program : Program}

/-- The slot of a varying is its place, whatever the settings, the stage and the rest of the
program are. -/
theorem exists_varying_entry (settings : Settings) (stage : Stage) {place : Nat}
    {declaration : Declaration} (declared : program.varyings[place]? = some declaration) :
    ∃ entry, entryAt? settings stage program .varying place = some entry ∧
      directed stage declaration <+: entry ∧
      ∀ semantics, BoundTo entry semantics ↔ semantics = .texCoord place := by
  refine ⟨_, entryAt?_eq .varying declared, ?_, ?_⟩
  · rw [entryOf, varyingParam_eq_bound]
    exact List.prefix_append _ _
  · intro semantics
    rw [entryOf, varyingParam_eq_bound, boundTo_bound_iff, eq_comm]

theorem uniformParam_prefix (samplerType : Text) (declaration : Declaration) (unit : Nat) :
    uniformParam declaration <+: uniformEntry samplerType declaration unit := by
  rw [uniformEntry]
  split
  · exact List.prefix_append _ _
  · exact List.prefix_rfl

theorem binds_of_hasWords (hasWords : program.HasWords)
    (typed : ∀ uniform ∈ program.uniforms, uniform.type ≠ [':']) :
    Binds settings stage program where
  length := length_params
  attributes place declaration declared := entryAt?_eq .attribute declared
  uniforms place declaration declared := by
    have listed := List.mem_of_getElem? declared
    refine ⟨_, entryAt?_eq .uniform declared, uniformParam_prefix _ _ _, ?_⟩
    intro number
    refine (boundTo_uniformEntry_iff (hasWords .uniform _ listed) (typed _ listed)).trans ?_
    rw [Semantics.texUnit.injEq]
  position vertex := ⟨_, boundTo_bound_iff.mpr rfl, getElem?_params_position vertex⟩
  varyings place declaration declared := by
    obtain ⟨entry, found, starts, ends⟩ := exists_varying_entry settings stage declared
    refine ⟨entry, found, starts, ?_⟩
    intro number
    rw [ends, Semantics.texCoord.injEq]
  single := countP_position hasWords typed

end Binding

/-- **The parameters of a program that was read are bound to dense slots, in order.** The
categories are listed in the order of the source; samplers are bound to the texture units from
zero on and varyings to the texture coordinates, and one entry to the position in a vertex shader
and none in a fragment shader. So programs with the same varyings bind each of them alike, one in
the vertex stage and the other in the fragment stage. -/
theorem params_bind (settings : Settings) (stage : Stage) {text : Text} {program : Program}
    (parsed : Program.parse text = .ok program)
    (typed : ∀ uniform ∈ program.uniforms, uniform.type ≠ [':']) :
    (∃ items, Program.Sequence items text ∧ program.Lists items) ∧
      Binds settings stage program ∧
      ∀ (others : Settings) (across : Stage) (other : Program),
        other.varyings = program.varyings → ∀ place < program.varyings.length,
          ∃ here there, entryAt? settings stage program .varying place = some here ∧
            entryAt? others across other .varying place = some there ∧
            ∀ semantics, BoundTo here semantics ↔ BoundTo there semantics := by
  refine ⟨?_, binds_of_hasWords (Program.hasWords_of_parse parsed) typed, ?_⟩
  · obtain ⟨items, sequence, lists, -⟩ := Program.states_of_parse_eq_ok parsed
    exact ⟨items, sequence, lists⟩
  · intro others across other same place inside
    have declared := List.getElem?_eq_getElem inside
    have declaredThere : other.varyings[place]? = some program.varyings[place] := by
      rw [same, declared]
    obtain ⟨here, found, -, ends⟩ := exists_varying_entry settings stage declared
    obtain ⟨there, foundThere, -, endsThere⟩ := exists_varying_entry others across declaredThere
    exact ⟨here, there, found, foundThere, fun semantics => (ends _).trans (endsThere _).symm⟩

/-- A program with samplers between other uniforms, one of them named like a texture unit. -/
def sampledText : Text :=
  "uniform sampler2D s; uniform float :; uniform sampler2D TEXUNIT0; varying vec2 uv;".toList

def sampled : Program where
  uniforms := [⟨"sampler2D".toList, ['s']⟩, ⟨"float".toList, [':']⟩,
    ⟨"sampler2D".toList, "TEXUNIT0".toList⟩]
  varyings := [⟨"vec2".toList, "uv".toList⟩]

theorem params_bind_sampled :
    Program.parse sampledText = .ok sampled ∧
      (∀ uniform ∈ sampled.uniforms, uniform.type ≠ [':']) ∧
      Binds Settings.standard .vertex sampled ∧
      ∃ entry, entryAt? Settings.standard .vertex sampled .uniform 2 = some entry ∧
        BoundTo entry (.texUnit 1) := by
  have parsed : Program.parse sampledText = .ok sampled := by decide +kernel
  have typed : ∀ uniform ∈ sampled.uniforms, uniform.type ≠ [':'] := by decide
  have bound := (params_bind Settings.standard .vertex parsed typed).2.1
  obtain ⟨entry, found, -, ends⟩ := bound.uniforms 2 _ rfl
  exact ⟨parsed, typed, bound, entry, found, (ends 1).mpr ⟨rfl, rfl⟩⟩

end CrossShade.Listing
