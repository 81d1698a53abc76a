import CrossShade.Proofs.Names
import CrossShade.Proofs.Statements

/-!
The indentation in a template. It is put in for a mark and then goes through the template's own
reading, where dollar signs begin references; since it is quoted first, it comes out as it went in.
The pieces of the template between the marks are read by themselves, unless a piece ends inside a
reference, which would go on into the indentation.

* `Text.replaceAll_eq_join`: a text with a word replaced is its pieces with the value in between.
* `Template.segments_append`: a template that ends outside of references is read up to its end.
* `Template.expand_join`: pieces around a quoted text are filled in one by one.
* `apply_indent_literally`: what a rule puts in for a match, for every indentation.
-/

namespace CrossShade.Text

/-! ### Pieces between occurrences -/

/-- The pieces of a text between the occurrences of a word. The first `skip` characters belong to an
occurrence that is already found. -/
def cutFrom (word : Text) : Nat → Text → List Text
  | _, [] => [[]]
  | skip + 1, _ :: rest => cutFrom word skip rest
  | 0, c :: rest =>
      if word.isPrefixOf (c :: rest) then [] :: cutFrom word (word.length - 1) rest
      else (cutFrom word 0 rest).modifyHead (c :: ·)

/-- The pieces of a text between the occurrences of a word, which are found from the left and do not
overlap. -/
def cut (word text : Text) : List Text :=
  cutFrom word 0 text

section Pieces

variable {word value text : Text} {pieces : List Text}

theorem exists_cutFrom (word : Text) (skip : Nat) (text : Text) :
    ∃ piece pieces, cutFrom word skip text = piece :: pieces := by
  induction text generalizing skip with
  | nil =>
      rw [cutFrom]
      exact ⟨[], [], rfl⟩
  | cons c rest ih =>
      cases skip with
      | succ skip => exact ih skip
      | zero =>
          rw [cutFrom]
          split
          · exact ⟨[], _, rfl⟩
          · obtain ⟨piece, pieces, eq⟩ := ih 0
            exact ⟨c :: piece, pieces, by rw [eq, List.modifyHead_cons]⟩

@[simp] theorem join_nil (separator : Text) : join separator [] = [] := rfl

@[simp] theorem join_singleton (separator piece : Text) : join separator [piece] = piece := by
  simp [join]

@[simp] theorem join_cons_cons (separator piece other : Text) (pieces : List Text) :
    join separator (piece :: other :: pieces) =
      piece ++ (separator ++ join separator (other :: pieces)) := by
  simp [join]

theorem join_cons_append (separator front piece : Text) (pieces : List Text) :
    join separator ((front ++ piece) :: pieces) = front ++ join separator (piece :: pieces) := by
  cases pieces <;> simp

theorem replaceFrom_eq_join (before : Option Char) (skip : Nat) (text : Text) :
    replaceFrom (fun _ _ => true) word value before skip text =
      join value (cutFrom word skip text) := by
  induction text generalizing before skip with
  | nil => cases skip <;> rfl
  | cons c rest ih =>
      cases skip with
      | succ skip => exact ih (some c) skip
      | zero =>
          rw [replaceFrom, cutFrom]
          split
          · obtain ⟨piece, pieces, eq⟩ := exists_cutFrom word (word.length - 1) rest
            rw [ih, eq, join_cons_cons]
            rfl
          · obtain ⟨piece, pieces, eq⟩ := exists_cutFrom word 0 rest
            rw [ih, eq, List.modifyHead_cons]
            exact (join_cons_append value [c] piece pieces).symm

/-- **A text with a word replaced** is its pieces with the value in between. -/
theorem replaceAll_eq_join (nonempty : word ≠ []) (value text : Text) :
    replaceAll word value text = join value (cut word text) := by
  rw [replaceAll, if_neg (by simpa using nonempty), replaceFrom_eq_join, cut]

theorem join_cutFrom (nonempty : word ≠ []) (skip : Nat) (text : Text) :
    join word (cutFrom word skip text) = text.drop skip := by
  induction text generalizing skip with
  | nil => cases skip <;> rfl
  | cons c rest ih =>
      cases skip with
      | succ skip => exact ih skip
      | zero =>
          rw [cutFrom, List.drop_zero]
          split
          · next occurs =>
              obtain ⟨piece, pieces, eq⟩ := exists_cutFrom word (word.length - 1) rest
              have whole := append_drop_of_prefix nonempty (List.isPrefixOf_iff_prefix.mp occurs)
              rw [eq, join_cons_cons, ← eq, ih, List.nil_append]
              exact whole
          · obtain ⟨piece, pieces, eq⟩ := exists_cutFrom word 0 rest
            have whole := ih 0
            rw [eq, List.drop_zero] at whole
            rw [eq, List.modifyHead_cons, ← whole]
            exact join_cons_append word [c] piece pieces

/-- The pieces of a text with the word in between are the text. -/
theorem join_cut (nonempty : word ≠ []) (text : Text) : join word (cut word text) = text :=
  join_cutFrom nonempty 0 text

/-- The word occurs in no piece. -/
theorem not_infix_of_mem_cutFrom (nonempty : word ≠ []) {skip : Nat} {piece : Text}
    (mem : piece ∈ cutFrom word skip text) : ¬word <:+: piece := by
  induction text generalizing skip piece with
  | nil =>
      rw [cutFrom, List.mem_singleton] at mem
      rw [mem, List.infix_nil]
      exact nonempty
  | cons c rest ih =>
      cases skip with
      | succ skip => exact ih mem
      | zero =>
          rw [cutFrom] at mem
          split at mem
          · rcases List.mem_cons.mp mem with rfl | mem
            · rw [List.infix_nil]
              exact nonempty
            · exact ih mem
          · next noOccurrence =>
              obtain ⟨first, pieces, eq⟩ := exists_cutFrom word 0 rest
              rw [eq, List.modifyHead_cons] at mem
              rcases List.mem_cons.mp mem with rfl | mem
              · -- The piece is the start of the text, where the word does not occur.
                have begins : first <+: rest := by
                  have whole := join_cutFrom nonempty 0 rest
                  rw [eq, List.drop_zero] at whole
                  have apart := join_cons_append word first [] pieces
                  rw [List.append_nil] at apart
                  rw [← whole, apart]
                  exact List.prefix_append _ _
                rw [List.infix_cons_iff]
                rintro (occurs | later)
                · refine noOccurrence (List.isPrefixOf_iff_prefix.mpr (occurs.trans ?_))
                  exact (List.prefix_cons_inj c).mpr begins
                · exact ih (by rw [eq]; exact List.mem_cons_self) later
              · exact ih (by rw [eq]; exact List.mem_cons_of_mem _ mem)

end Pieces

end CrossShade.Text

namespace CrossShade.Template

/-! ### References at the end of a piece -/

/-- Whether a reference, of which the text behind its dollar sign is given, may go on behind that
text: nothing follows the sign, or a name reaches to the end, or braces stay open. -/
def goesOn (rest : Text) : Bool :=
  match rest with
  | '$' :: _ => false
  | '{' :: inner => !inner.contains '}'
  | _ => rest.all Text.isIdentifierChar

/-- Whether a template ends inside a reference, when its first `skip` characters belong to a segment
already read. -/
def endsInReferenceFrom : Nat → Text → Bool
  | _, [] => false
  | skip + 1, _ :: rest => endsInReferenceFrom skip rest
  | 0, c :: rest =>
      if c = '$' then goesOn rest || endsInReferenceFrom (dollarAt rest).2 rest
      else endsInReferenceFrom 0 rest

/-- Whether a template ends inside a reference: a dollar sign with nothing behind it, a name that
reaches to the end, or braces that stay open. -/
def endsInReference (template : Text) : Bool :=
  endsInReferenceFrom 0 template

section References

variable {c : Char} {rest back : Text} {names : List (Text × Nat)} {found : Pattern.Match}

theorem upTo?_of_mem (closed : '}' ∈ rest) :
    Pattern.upTo? '}' rest = some (rest.takeWhile (· != '}')) := by
  rw [Pattern.upTo?, if_pos (by simpa using closed)]

/-- Up to a character that a text has, nothing behind the text is seen. -/
theorem takeWhile_append_of_mem {p : Char → Bool} (stop : ∃ d ∈ rest, p d = false) (back : Text) :
    (rest ++ back).takeWhile p = rest.takeWhile p ∧ (rest.takeWhile p).length < rest.length := by
  induction rest with
  | nil => simp at stop
  | cons d rest ih =>
      cases goes : p d with
      | false => simp [goes]
      | true =>
          have later : ∃ e ∈ rest, p e = false := by
            obtain ⟨e, mem, stops⟩ := stop
            rcases List.mem_cons.mp mem with rfl | mem
            · rw [goes] at stops
              cases stops
            · exact ⟨e, mem, stops⟩
          obtain ⟨same, less⟩ := ih later
          simp [goes, same, less]

/-- The segment of a dollar sign with neither another sign nor a brace behind it. -/
theorem dollarAt_of_plain (noSign : ∀ more, rest ≠ '$' :: more)
    (noBrace : ∀ more, rest ≠ '{' :: more) :
    dollarAt rest =
      if (rest.takeWhile Text.isIdentifierChar).isEmpty then (.char '$', 0)
      else (.reference (rest.takeWhile Text.isIdentifierChar),
        (rest.takeWhile Text.isIdentifierChar).length) := by
  unfold dollarAt
  split
  · next more => exact absurd rfl (noSign more)
  · next more => exact absurd rfl (noBrace more)
  · rfl

/-- A segment that is complete is the same whatever follows. -/
theorem dollarAt_append (complete : goesOn rest = false) (back : Text) :
    dollarAt (rest ++ back) = dollarAt rest ∧ (dollarAt rest).2 ≤ rest.length := by
  unfold goesOn at complete
  split at complete
  · exact ⟨rfl, Nat.succ_le_succ (Nat.zero_le _)⟩
  · next inner =>
      have closed : '}' ∈ inner := by simpa using complete
      obtain ⟨same, less⟩ :=
        takeWhile_append_of_mem (p := (· != '}')) ⟨'}', closed, by simp⟩ back
      have here : Pattern.upTo? '}' (inner ++ back) = some (inner.takeWhile (· != '}')) := by
        rw [upTo?_of_mem (List.mem_append_left back closed), same]
      have alone := upTo?_of_mem closed
      constructor
      · simp only [dollarAt, List.cons_append, here, alone]
      · simp only [dollarAt, alone, List.length_cons]
        omega
  · next noSign noBrace =>
      obtain ⟨d, mem, stops⟩ := List.all_eq_false.mp complete
      have stops : Text.isIdentifierChar d = false := by simpa using stops
      obtain ⟨same, less⟩ := takeWhile_append_of_mem ⟨d, mem, stops⟩ back
      obtain ⟨e, more, rfl⟩ := List.exists_cons_of_ne_nil (List.ne_nil_of_mem mem)
      have plain := @dollarAt_of_plain (e :: more) noSign noBrace
      have whole := @dollarAt_of_plain (e :: more ++ back)
        (fun rest eq => noSign more (by rw [(List.cons.inj eq).1]))
        (fun rest eq => noBrace more (by rw [(List.cons.inj eq).1]))
      rw [same, ← plain] at whole
      refine ⟨whole, ?_⟩
      rw [plain]
      split
      · exact Nat.zero_le _
      · exact Nat.le_of_lt less

/-- **A template that ends outside of references** is read up to its end, and what follows is read
by itself. -/
theorem segments_append {front : Text} (complete : endsInReference front = false) (back : Text) :
    segments (front ++ back) = segments front ++ segments back := by
  have run : ∀ skip ≤ front.length, endsInReferenceFrom skip front = false →
      segmentsFrom skip (front ++ back) = segmentsFrom skip front ++ segments back := by
    clear complete
    induction front with
    | nil =>
        intro skip inside _
        rw [Nat.le_zero.mp inside]
        rfl
    | cons c front ih =>
        intro skip inside complete
        cases skip with
        | succ skip => exact ih skip (Nat.le_of_succ_le_succ inside) complete
        | zero =>
            rw [endsInReferenceFrom] at complete
            rw [List.cons_append, segmentsFrom, segmentsFrom]
            split
            · next dollar =>
                rw [if_pos dollar, Bool.or_eq_false_iff] at complete
                obtain ⟨same, within⟩ := dollarAt_append complete.1 back
                rw [same]
                dsimp only
                rw [ih _ within complete.2, List.cons_append]
            · next plain =>
                rw [if_neg plain] at complete
                rw [ih 0 (Nat.zero_le _) complete]
                rfl
  exact run 0 (Nat.zero_le _) complete

theorem expand_append {front : Text} (complete : endsInReference front = false) (back : Text) :
    expand names (front ++ back) found = expand names front found ++ expand names back found := by
  rw [expand, expand, expand, segments_append complete, List.flatMap_append]

theorem expand_escape_append (text rest : Text) :
    expand names (escape text ++ rest) found = text ++ expand names rest found := by
  rw [expand, expand, segments_escape_append, List.flatMap_append, flatMap_fill_chars]

/-- **Pieces around a quoted text are filled in one by one**, and the text stands between them as it
is. -/
theorem expand_join (indent : Text) {pieces : List Text}
    (complete : ∀ piece ∈ pieces.dropLast, endsInReference piece = false) :
    expand names (Text.join (escape indent) pieces) found =
      Text.join indent (pieces.map fun piece => expand names piece found) := by
  induction pieces with
  | nil => rfl
  | cons piece pieces ih =>
      cases pieces with
      | nil => simp
      | cons other pieces =>
          rw [List.dropLast_cons_cons] at complete
          obtain ⟨here, later⟩ := List.forall_mem_cons.mp complete
          rw [Text.join_cons_cons, expand_append here, expand_escape_append, ih later]
          simp

end References

end CrossShade.Template

namespace CrossShade.Rule

open CrossShade.Text

/-! ### Rules with an indentation -/

/-- The rule that ends lines. -/
def lineBreaks : Rule :=
  ⟨breakStatementsName, ⟨"; *".toList, statementEnd, []⟩, ";\n".toList ++ indentMark⟩

theorem breakStatements_eq_ok : breakStatements = .ok lineBreaks := by
  decide +kernel

theorem apply_lineBreaks (indent body : Text) :
    lineBreaks.apply indent body = edit (broken indent) none body :=
  apply_eq_edit rfl (finds_statementEnd (expand_indent indent)) body

/-- **What `broken` finds**: the end of a statement and all the spaces behind it. -/
theorem broken_eq_some_iff {indent text value rest : Text} {before : Option Char} :
    broken indent before text = some (value, rest) ↔
      ∃ gap, (∀ c ∈ gap, c = ' ') ∧ rest.head? ≠ some ' ' ∧ text = ';' :: (gap ++ rest) ∧
        value = ";\n".toList ++ indent := by
  constructor
  · intro found
    have value_eq := value_of_broken found
    unfold broken at found
    split at found
    · next behind =>
        obtain ⟨-, rfl⟩ := Prod.mk.inj (Option.some.inj found)
        refine ⟨leadingSpaces behind, fun c => eq_space_of_mem_leadingSpaces,
          head?_dropSpaces behind, ?_, value_eq⟩
        rw [leadingSpaces_append_dropSpaces]
    · cases found
  · rintro ⟨gap, spaced, solid, rfl, rfl⟩
    have stop := (dropSpaces_eq_iff solid).mpr ⟨gap, spaced, rfl⟩
    exact congrArg (fun rest => some (";\n".toList ++ indent, rest)) stop

/-- **The indentation stands as it is.** The template of a rule is its pieces with the mark in
between, and no piece has the mark in it. If no piece but the last ends inside a reference, the rule
puts in for each match the pieces, filled in for the match by themselves, with the indentation
between them, whatever that is made of. The rule that ends lines puts in the end of the statement, a
line end and the indentation, for each end of a statement and all the spaces behind it. -/
theorem apply_indent_literally :
    (∀ rule : Rule, join indentMark (cut indentMark rule.replacement) = rule.replacement ∧
      (∀ piece ∈ cut indentMark rule.replacement, ¬indentMark <:+: piece) ∧
      ((∀ piece ∈ (cut indentMark rule.replacement).dropLast,
          Template.endsInReference piece = false) →
        ∀ indent body, rule.apply indent body =
          rule.pattern.regex.replaceAll (fun found =>
            join indent ((cut indentMark rule.replacement).map fun piece =>
              Template.expand rule.pattern.names piece found)) body)) ∧
    ∃ rule, breakStatements = .ok rule ∧
      (∀ indent body, rule.apply indent body = edit (broken indent) none body) ∧
      ∀ indent before text value rest, broken indent before text = some (value, rest) ↔
        ∃ gap, (∀ c ∈ gap, c = ' ') ∧ rest.head? ≠ some ' ' ∧ text = ';' :: (gap ++ rest) ∧
          value = ";\n".toList ++ indent := by
  have nonempty : indentMark ≠ [] := by decide
  refine ⟨fun rule => ⟨join_cut nonempty _, fun piece => not_infix_of_mem_cutFrom nonempty, ?_⟩,
    lineBreaks, breakStatements_eq_ok, apply_lineBreaks,
    fun _ _ _ _ _ => broken_eq_some_iff⟩
  intro complete indent body
  have values : Template.expand rule.pattern.names (rule.template indent) = fun found =>
      join indent ((cut indentMark rule.replacement).map fun piece =>
        Template.expand rule.pattern.names piece found) := by
    funext found
    rw [template, replaceAll_eq_join nonempty, Template.expand_join indent complete]
  rw [apply, Pattern.replaceAll, values]

/-- An indentation with a reference and with the mark in it, behind a reference that is closed. -/
theorem apply_indent_literally_sample :
    let rule : Rule := ⟨[], ⟨['a'], .char 'a', []⟩, "<$\x7b0\x7d\x7bindent\x7d$".toList⟩
    (∀ piece ∈ (cut indentMark rule.replacement).dropLast,
        Template.endsInReference piece = false) ∧
      rule.apply "$0\x7bindent\x7d".toList "bad".toList = "b<a$0\x7bindent\x7d$d".toList := by
  intro rule
  have complete : ∀ piece ∈ (cut indentMark rule.replacement).dropLast,
      Template.endsInReference piece = false := by decide
  have literally := (apply_indent_literally.1 rule).2.2 complete
  refine ⟨complete, (literally _ _).trans ?_⟩
  decide +kernel

/-- Behind a lone dollar sign the indentation is read on as a name. -/
example :
    Template.endsInReference ['$'] = true ∧
      Rule.apply ⟨[], ⟨['a'], .char 'a', []⟩, "$\x7bindent\x7d".toList⟩ ['0'] "bad".toList =
        "bad".toList := by
  decide +kernel

end CrossShade.Rule
