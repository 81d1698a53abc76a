import CrossShade.Conversion
import CrossShade.Proofs.Folding
import CrossShade.Proofs.Grammar
import CrossShade.Proofs.Unmarked

/-!
Folded texts as they are read. Folding keeps brackets balanced and brings in no marks, and it
keeps words apart that layout keeps apart, so tokens can be read off the parts of a text before
they are folded (`spells_squeeze`, `phrase_fold_function`).
-/

namespace CrossShade.Layout

open CrossShade.Token CrossShade.Comment

/-! ### Tokens behind layout -/

section Rows

variable {spaced : Bool} {gap token rest : Text} {tokens : List Text}

/-- A token behind layout is the first one of what is folded from there. -/
theorem spells_squeeze (spacing : AllSpacing gap) (isToken : IsToken token)
    (solid : ∀ c ∈ token, isSpacing c = false) (ends : EndsWord (squeeze false rest))
    (row : Spells tokens (squeeze false rest)) :
    Spells (token :: tokens) (squeeze spaced (gap ++ (token ++ rest))) := by
  have blank := allBlank_squeeze spaced spacing
  rcases isToken with word | ⟨c, rfl, delimiter, visible⟩
  · obtain ⟨later, eq⟩ := exists_squeeze_append spaced gap (token ++ rest)
    rw [eq, squeeze_append_of_solid word.nonempty solid, ← List.append_assoc]
    exact .word blank word ends row
  · rw [List.singleton_append, squeeze_append_cons (solid c List.mem_cons_self)]
    exact .mark blank delimiter visible row

/-- Layout ends a word. -/
theorem endsWord_squeeze (nonempty : gap ≠ []) (spacing : AllSpacing gap) (rest : Text) :
    EndsWord (squeeze false (gap ++ rest)) := by
  rw [squeeze_append_of_spacing nonempty spacing]
  exact endsWord_cons (by decide)

theorem endsWord_squeeze_of_spacing (spacing : AllSpacing gap) : EndsWord (squeeze false gap) := by
  by_cases empty : gap = []
  · rw [empty]
    exact endsWord_nil
  · simpa using endsWord_squeeze empty spacing []

end Rows

/-! ### Brackets and marks -/

theorem fold_append_singleton {c : Char} (solid : isSpacing c = false) (text : Text) :
    fold (text ++ [c]) = fold text ++ [c] :=
  fold_append_cons solid text []

/-- A pair of brackets that neither folding nor trimming takes away. -/
structure Lasting (opening closing : Char) : Prop where
  differ : opening ≠ closing
  solidOpening : Text.isBlank opening = false
  solidClosing : Text.isBlank closing = false

theorem parentheses : Lasting '(' ')' := by
  constructor <;> decide

theorem braces : Lasting '{' '}' := by
  constructor <;> decide

section Brackets

variable {opening closing : Char} {text : Text} (lasting : Lasting opening closing)

include lasting

theorem Lasting.not_blank (c : Char) (bracket : (c == opening || c == closing) = true) :
    Text.isBlank c = false :=
  Enclosed.of_bracket lasting.solidOpening lasting.solidClosing c bracket

theorem balanced_trimStart (balanced : Enclosed.Balanced opening closing text) :
    Enclosed.Balanced opening closing (Text.trimStart text) :=
  balanced.of_brackets lasting.differ (Text.filter_trimStart lasting.not_blank text)

theorem balanced_trim (balanced : Enclosed.Balanced opening closing text) :
    Enclosed.Balanced opening closing (Text.trim text) :=
  balanced.of_brackets lasting.differ (Text.filter_trim lasting.not_blank text)

theorem balanced_fold (balanced : Enclosed.Balanced opening closing text) :
    Enclosed.Balanced opening closing (fold text) := by
  refine balanced.of_brackets lasting.differ (filter_fold ?_ text)
  intro c bracket
  rw [← Bool.not_eq_true]
  intro spacing
  have both := (lasting.not_blank c bracket).symm.trans (isBlank_of_isSpacing spacing)
  cases both

end Brackets

/-- **A function stays one when it is folded**, with its parameters and its body folded. -/
theorem phrase_fold_function {header params gap body returnType name : Text}
    (spelled : Spells [returnType, name] (squeeze false header))
    (noQualifier : ∀ qualifier : Qualifier, returnType ≠ qualifier.keyword)
    (noStray : returnType ≠ [';']) (noPrecision : returnType ≠ Program.precisionKeyword)
    (paramsBalance : Enclosed.Balanced '(' ')' params) (spacing : AllSpacing gap)
    (bodyBalance : Enclosed.Balanced '{' '}' body) :
    Program.Phrase
      (some (.function ⟨name, returnType, Text.trimStart (fold params), Text.trim (fold body)⟩))
      (fold (header ++ '(' :: (params ++ ')' :: (gap ++ '{' :: (body ++ ['}']))))) := by
  rw [fold_append_cons (by decide), fold_append_cons (by decide), fold_append_cons (by decide),
    fold_append_singleton (by decide)]
  rw [← fold_eq_squeeze] at spelled
  have blank := allBlank_squeeze false spacing
  rw [← fold_eq_squeeze] at blank
  exact .function spelled noQualifier noStray noPrecision (balanced_fold parentheses paramsBalance)
    blank (balanced_fold braces bodyBalance)

theorem neutral_of_spacing {c : Char} (spacing : isSpacing c = true) : Neutral c := by
  simp only [isSpacing, Bool.or_eq_true, beq_iff_eq] at spacing
  rcases spacing with ((rfl | rfl) | rfl) | rfl <;> decide

end CrossShade.Layout

namespace CrossShade

/-! ### From the program to the listing -/

section Listed

variable {settings : Settings} {stage : Stage} {source : Text} {program : Program}

/-- A source whose prepared text is read as a program is converted as the program is listed. -/
theorem convert_of_parse (settings : Settings) (stage : Stage)
    (parsed : Program.parse (Source.prepare settings.substitutions settings.mode source) =
      .ok program) :
    Conversion.convert settings stage source = Listing.generate settings stage program := by
  have read : (Conversion.read settings source).program = .ok program := parsed
  rw [Conversion.convert, read]
  rfl

/-- A program with an entry point has a listing. -/
theorem exists_generate (settings : Settings) (stage : Stage)
    (main : 0 < program.functions.countP Function.isMain) :
    ∃ output, Listing.generate settings stage program = .ok output := by
  have found : (program.functions.find? Function.isMain).isSome = true := by
    rw [List.find?_isSome]
    exact List.countP_pos_iff.mp main
  obtain ⟨function, eq⟩ := Option.isSome_iff_exists.mp found
  have entry : program.entryPoint = .ok function := by
    simp only [Program.entryPoint, eq]
  rw [Listing.generate, entry]
  exact ⟨_, rfl⟩

end Listed

end CrossShade
