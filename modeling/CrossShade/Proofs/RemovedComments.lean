import CrossShade.Conversion
import CrossShade.Proofs.Seams
import CrossShade.Proofs.Translation

/-!
Comments that are taken out, and what becomes of the source around them.

* `tokens_around_block_iff`: a block comment leaves the tokens around it alone unless it is all
  that stands between two words.
* `comment_behind_space_inert`: a comment with a space in front of it makes no difference to the
  prepared source, and so none to the conversion.
-/

namespace CrossShade.Comment

open CrossShade.Layout

/-! ### Tokens around a comment -/

/-- **A block comment and the tokens around it.** A block comment leaves nothing, so the tokens
around it stay what they are unless a word in front of it goes on behind it. -/
theorem tokens_around_block_iff {front text back : Text} (plain : Commentless front)
    (plainBack : Commentless back) (closed : ¬ "*/".toList <:+: text) :
    strip (front ++ (blockComment text ++ back)) = front ++ back ∧
      (Token.all (fold (strip (front ++ (blockComment text ++ back)))) =
          Token.all (fold front) ++ Token.all (fold back) ↔
        (Token.inWord (fold front) = true → Token.EndsWord (fold back))) := by
  have stripped : strip (front ++ (blockComment text ++ back)) = front ++ back := by
    rw [strip_append_block plain closed, strip_of_commentless plainBack]
  refine ⟨stripped, ?_⟩
  rw [stripped]
  exact Token.all_fold_append_iff

theorem tokens_around_block_sample :
    Token.all (fold (strip ("uniform ".toList ++ (blockComment " the / kind ".toList ++
        "float x".toList)))) =
      Token.all (fold "uniform ".toList) ++ Token.all (fold "float x".toList) := by
  have plain : Commentless "uniform ".toList := by decide
  have plainBack : Commentless "float x".toList := by decide
  have outside : Token.inWord (fold "uniform ".toList) = false := by decide
  have around := tokens_around_block_iff plain plainBack
    (show ¬ "*/".toList <:+: " the / kind ".toList by decide)
  refine around.2.mpr fun within => ?_
  rw [outside] at within
  cases within

/-- Two words with nothing but a comment between them become one. -/
theorem tokens_around_block_joined :
    Commentless "uniform".toList ∧ Commentless "float".toList ∧ ¬ "*/".toList <:+: ([] : Text) ∧
      Token.all (fold (strip ("uniform".toList ++ (blockComment [] ++ "float".toList)))) ≠
        Token.all (fold "uniform".toList) ++ Token.all (fold "float".toList) := by
  have plain : Commentless "uniform".toList := by decide
  have plainBack : Commentless "float".toList := by decide
  have closed : ¬ "*/".toList <:+: ([] : Text) := by decide
  refine ⟨plain, plainBack, closed, ?_⟩
  rw [strip_append_block plain closed, strip_of_commentless plainBack]
  intro same
  have ends := Token.all_fold_append_iff.mp same (by decide)
  have delimiter : Token.isDelimiter 'f' = true := ends 'f' (by decide)
  exact absurd delimiter (by decide)

end CrossShade.Comment

namespace CrossShade

open CrossShade.Comment CrossShade.Layout CrossShade.Substitution

/-! ### Comments behind a space -/

section Prepared

variable {c : Char} {front back text : Text} {mode : Mode}

theorem dropMark_append_cons (noMark : c ≠ Char.ofNat 0xFEFF) (front back : Text) :
    Source.dropMark (front ++ c :: back) = Source.dropMark front ++ c :: back := by
  cases front with
  | nil => simp [Source.dropMark, noMark]
  | cons d front =>
      by_cases mark : d = Char.ofNat 0xFEFF
      · simp [Source.dropMark, mark]
      · simp [Source.dropMark, mark]

theorem mem_of_mem_dropMark (mem : c ∈ Source.dropMark text) : c ∈ text := by
  cases text with
  | nil => exact mem
  | cons d text =>
      rw [Source.dropMark] at mem
      split at mem
      · exact List.mem_cons_of_mem _ mem
      · exact mem

/-- The standard table brings in letters of identifiers and spaces only. -/
theorem notMem_apply_glslToCg (other : Text.isIdentifierChar c = false) (noSpace : c ≠ ' ')
    (absent : c ∉ text) : c ∉ Table.glslToCg.apply mode text := by
  intro mem
  rcases Table.mem_apply mem with mem | ⟨entry, listed, mem⟩
  · exact absent mem
  · rcases glslToCg_targets entry listed c mem with letter | space
    · rw [other] at letter
      cases letter
    · exact noSpace space

theorem Comment.Commentless.apply (plain : Commentless text) (mode : Mode) :
    Commentless (Table.glslToCg.apply mode text) where
  noQuote := notMem_apply_glslToCg rfl (by decide) plain.noQuote
  noHash := notMem_apply_glslToCg rfl (by decide) plain.noHash
  noSlash := notMem_apply_glslToCg rfl (by decide) plain.noSlash

/-- The standard table is applied to what stands between two marks as if it stood alone. -/
theorem apply_between {opening closing : Text}
    (separate : ∀ c ∈ opening ++ closing, Text.isIdentifierChar c = false)
    (nonempty : closing ≠ []) (mode : Mode) (text back : Text) :
    Table.glslToCg.apply mode (opening ++ text ++ closing ++ back) =
      opening ++ Table.glslToCg.apply mode text ++ closing ++ Table.glslToCg.apply mode back := by
  have apart : ∀ c ∈ opening ++ closing, Table.glslToCg.Apart c := fun c mem =>
    glslToCg_isLexical.apart (separate c mem)
  have before : ∀ c ∈ opening, Table.glslToCg.Apart c := fun c mem =>
    apart c (List.mem_append_left _ mem)
  have behind : ∀ c ∈ closing, Table.glslToCg.Apart c := fun c mem =>
    apart c (List.mem_append_right _ mem)
  simp only [List.append_assoc]
  rw [Table.apply_append_of_apart before, Table.apply_append_apart nonempty behind]

theorem apply_blockComment_append (mode : Mode) (text back : Text) :
    Table.glslToCg.apply mode (blockComment text ++ back) =
      blockComment (Table.glslToCg.apply mode text) ++ Table.glslToCg.apply mode back :=
  apply_between (by decide) (List.cons_ne_nil _ _) mode text back

theorem apply_lineComment_append (mode : Mode) (text back : Text) :
    Table.glslToCg.apply mode (lineComment text ++ back) =
      lineComment (Table.glslToCg.apply mode text) ++ Table.glslToCg.apply mode back :=
  apply_between (by decide) (List.cons_ne_nil _ _) mode text back

/-- A source up to a space is prepared by itself if no mark begins in it. -/
theorem prepare_append_space (plain : Commentless front) (mode : Mode) (back : Text) :
    Source.prepare .glslToCg mode (front ++ ' ' :: back) =
      fold (Table.glslToCg.apply mode (Source.dropMark front) ++
        ' ' :: strip (Table.glslToCg.apply mode back)) := by
  have plainFront : Commentless (Table.glslToCg.apply mode (Source.dropMark front)) :=
    (plain.of_subset fun _ => mem_of_mem_dropMark).apply mode
  rw [Source.prepare, dropMark_append_cons (by decide),
    Table.apply_append_cons glslToCg_isLexical mode rfl,
    strip_append plainFront (by simp), strip_space]

/-- Spacing behind a space is folded into it. -/
theorem fold_append_space_spacing (spacing : isSpacing c = true) (front back : Text) :
    fold (front ++ ' ' :: c :: back) = fold (front ++ ' ' :: back) := by
  have space : isSpacing ' ' = true := rfl
  simp only [fold_eq_squeeze, squeeze_append, squeeze, space, spacing, if_true]

/-- What is converted is the prepared source and nothing else. -/
theorem convert_congr {settings : Settings} {source other : Text}
    (same : Source.prepare settings.substitutions settings.mode source =
      Source.prepare settings.substitutions settings.mode other) (stage : Stage) :
    Conversion.convert settings stage source = Conversion.convert settings stage other := by
  rw [Conversion.convert, Conversion.convert, Conversion.read, Conversion.read, same]

theorem prepare_blockComment (plain : Commentless front)
    (closed : ¬ "*/".toList <:+: Table.glslToCg.apply mode text) (back : Text) :
    Source.prepare .glslToCg mode (front ++ ' ' :: (blockComment text ++ ' ' :: back)) =
      Source.prepare .glslToCg mode (front ++ ' ' :: back) := by
  rw [prepare_append_space plain, prepare_append_space plain, apply_blockComment_append,
    strip_block closed, Table.apply_cons glslToCg_isLexical mode rfl, strip_space,
    fold_append_space_spacing rfl]

theorem prepare_lineComment (plain : Commentless front) (oneLine : '\n' ∉ text) (back : Text) :
    Source.prepare .glslToCg mode (front ++ ' ' :: (lineComment text ++ back)) =
      Source.prepare .glslToCg mode (front ++ ' ' :: back) := by
  have stays : '\n' ∉ Table.glslToCg.apply mode text :=
    notMem_apply_glslToCg rfl (by decide) oneLine
  rw [prepare_append_space plain, prepare_append_space plain, apply_lineComment_append,
    strip_line stays, fold_append_space_spacing rfl]

end Prepared

/-- **A comment behind a space makes no difference**, be it a block comment with a space behind it
or a line comment with its line end: the source is prepared and converted as if a single space
stood in its place. -/
theorem comment_behind_space_inert {settings : Settings}
    (table : settings.substitutions = .glslToCg) {front : Text} (plain : Commentless front)
    (text back : Text) :
    (¬ "*/".toList <:+: Table.glslToCg.apply settings.mode text →
      Source.prepare settings.substitutions settings.mode
          (front ++ ' ' :: (blockComment text ++ ' ' :: back)) =
        Source.prepare settings.substitutions settings.mode (front ++ ' ' :: back) ∧
      ∀ stage, Conversion.convert settings stage
          (front ++ ' ' :: (blockComment text ++ ' ' :: back)) =
        Conversion.convert settings stage (front ++ ' ' :: back)) ∧
    ('\n' ∉ text →
      Source.prepare settings.substitutions settings.mode
          (front ++ ' ' :: (lineComment text ++ back)) =
        Source.prepare settings.substitutions settings.mode (front ++ ' ' :: back) ∧
      ∀ stage, Conversion.convert settings stage (front ++ ' ' :: (lineComment text ++ back)) =
        Conversion.convert settings stage (front ++ ' ' :: back)) := by
  refine ⟨fun closed => ?_, fun oneLine => ?_⟩
  · have same := prepare_blockComment plain closed back
    rw [← table] at same
    exact ⟨same, convert_congr same⟩
  · have same := @prepare_lineComment front text settings.mode plain oneLine back
    rw [← table] at same
    exact ⟨same, convert_congr same⟩

theorem comment_behind_space_inert_sample :
    Conversion.convert .standard .fragment ("uniform".toList ++ ' ' ::
        (blockComment " a \"vec3\" / # * ".toList ++ ' ' :: "float x; void main() {}".toList)) =
      Conversion.convert .standard .fragment
        ("uniform".toList ++ ' ' :: "float x; void main() {}".toList) ∧
    Conversion.convert .standard .fragment ("uniform".toList ++ ' ' ::
        (lineComment " a */ \"mix".toList ++ "float x; void main() {}".toList)) =
      Conversion.convert .standard .fragment
        ("uniform".toList ++ ' ' :: "float x; void main() {}".toList) := by
  have table : Settings.standard.substitutions = .glslToCg := rfl
  have plain : Commentless "uniform".toList := by decide
  have block := comment_behind_space_inert table plain " a \"vec3\" / # * ".toList
    "float x; void main() {}".toList
  have line := comment_behind_space_inert table plain " a */ \"mix".toList
    "float x; void main() {}".toList
  exact ⟨(block.1 (by decide)).2 .fragment, (line.2 (by decide)).2 .fragment⟩

end CrossShade
