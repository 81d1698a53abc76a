import Mathlib.Logic.Function.Iterate
import CrossShade.Proofs.TokenRow

/-!
All tokens of a text. Reading them one after another comes to an end, and what it gives is the one
way to take the text apart into tokens.

* `spells_iff`: a text is a row of its tokens and of no others.
* `getElem?_all_eq_some_iff`: which token is read when some have been read before it.
* `tokens_taken_apart`: both together, with the end of the reading and what each step leaves.
-/

namespace CrossShade.Token

/-! ### The tokens of a row -/

section Rows

variable {token text : Text} {tokens : List Text}

theorem all_of_next_eq_nil (atEnd : (next text).1 = []) : all text = [] := by
  rw [all, dif_pos atEnd]

theorem all_of_next_ne_nil (found : (next text).1 ≠ []) :
    all text = (next text).1 :: all (next text).2 := by
  rw [all, dif_neg found]

/-- **The tokens of a row** are the ones it is made of. -/
theorem Spells.all_eq (row : Spells tokens text) : all text = tokens := by
  induction tokens generalizing text with
  | nil =>
      cases row with
      | blanks blank => exact all_of_next_eq_nil (congrArg Prod.fst (next_of_allBlank blank))
  | cons token tokens ih =>
      have nonempty := row.nonempty List.mem_cons_self
      obtain ⟨later, behind, read⟩ := row.next endsWord_nil
      rw [List.append_nil, List.append_nil] at read
      rw [all, read, dif_neg nonempty, ih behind]

theorem spells_all (text : Text) : Spells (all text) text := by
  obtain ⟨tokens, row, -⟩ := exists_spelling text
  rw [row.all_eq]
  exact row

/-- **A text is taken apart in one way.** -/
theorem spells_iff : Spells tokens text ↔ tokens = all text := by
  constructor
  · intro row
    exact row.all_eq.symm
  · rintro rfl
    exact spells_all text

end Rows

/-! ### One token after another -/

/-- What is left of a text when so many tokens have been read. -/
def left (count : Nat) (text : Text) : Text :=
  (fun rest => (next rest).2)^[count] text

section Steps

variable {token text : Text} {count : Nat}

theorem left_succ (count : Nat) (text : Text) :
    left (count + 1) text = (next (left count text)).2 :=
  Function.iterate_succ_apply' _ _ _

/-- A step takes the first token off, and at the end of the text there is nothing to take. -/
theorem all_next (text : Text) : all (next text).2 = (all text).tail := by
  by_cases found : (next text).1 = []
  · have atEnd := next_of_allBlank (next_eq_nil_iff.mp found)
    rw [all_of_next_eq_nil found, atEnd]
    exact all_of_next_eq_nil rfl
  · rw [all_of_next_ne_nil found, List.tail_cons]

/-- **The rest of the tokens** are those of what is left. -/
theorem all_left (count : Nat) (text : Text) : all (left count text) = (all text).drop count := by
  induction count with
  | zero => rfl
  | succ count ih => rw [left_succ, all_next, ih, List.tail_drop]

theorem head?_all_eq_some_iff :
    (all text).head? = some token ↔ (next text).1 = token ∧ token ≠ [] := by
  by_cases found : (next text).1 = []
  · rw [all_of_next_eq_nil found, found]
    constructor
    · intro first
      cases first
    · rintro ⟨rfl, nonempty⟩
      exact absurd rfl nonempty
  · rw [all_of_next_ne_nil found, List.head?_cons, Option.some_inj]
    constructor
    · rintro rfl
      exact ⟨rfl, found⟩
    · exact And.left

/-- **The tokens are read one after another**: each is the next one of what is left before it, and
there are as many as there are steps that find one. -/
theorem getElem?_all_eq_some_iff :
    (all text)[count]? = some token ↔ (next (left count text)).1 = token ∧ token ≠ [] := by
  rw [← List.head?_drop, ← all_left, head?_all_eq_some_iff]

/-- When all tokens have been read, there is none left. -/
theorem next_left_length (text : Text) : (next (left (all text).length text)).1 = [] := by
  by_contra found
  have another := getElem?_all_eq_some_iff.mpr ⟨rfl, found⟩
  rw [List.getElem?_eq_none le_rfl] at another
  cases another

/-- A text has no more tokens than characters. -/
theorem length_all_le (text : Text) : (all text).length ≤ text.length := by
  induction text using all.induct with
  | case1 text atEnd =>
      rw [all_of_next_eq_nil atEnd]
      exact Nat.zero_le _
  | case2 text found ih =>
      rw [all_of_next_ne_nil found, List.length_cons]
      have shorter := next_length text found
      omega

/-- A step that finds a token goes on with a shorter suffix. -/
theorem left_succ_shorter (found : (next (left count text)).1 ≠ []) :
    left (count + 1) text <:+ left count text ∧
      (left (count + 1) text).length < (left count text).length := by
  rw [left_succ]
  exact ⟨next_suffix _, next_length _ found⟩

end Steps

/-- **Reading loses nothing and ends.** The tokens that are read one after another are those of the
one row that the text is. After no more steps than there are characters none is found, and each step
that finds one goes on with a shorter suffix of what it began with. -/
theorem tokens_taken_apart (text : Text) :
    (∀ tokens, Spells tokens text ↔ tokens = all text) ∧
    (∀ count token, (all text)[count]? = some token ↔
      (next (left count text)).1 = token ∧ token ≠ []) ∧
    (next (left (all text).length text)).1 = [] ∧ (all text).length ≤ text.length ∧
    ∀ count, (next (left count text)).1 ≠ [] →
      left (count + 1) text <:+ left count text ∧
        (left (count + 1) text).length < (left count text).length :=
  ⟨fun _ => spells_iff, fun _ _ => getElem?_all_eq_some_iff, next_left_length text,
    length_all_le text, fun _ found => left_succ_shorter found⟩

/-- A tab behind a letter belongs to its word, and a tab in front of a word to none. -/
theorem tokens_taken_apart_sample :
    (all "a\t*\tb".toList)[1]? = some "*".toList ∧
      (next (left 1 "a\t*\tb".toList)).1 ≠ [] ∧
      left 2 "a\t*\tb".toList <:+ left 1 "a\t*\tb".toList ∧
      (left 2 "a\t*\tb".toList).length < (left 1 "a\t*\tb".toList).length :=
  have ⟨_, read, _, _, step⟩ := tokens_taken_apart "a\t*\tb".toList
  have found : (next (left 1 "a\t*\tb".toList)).1 ≠ [] := by decide
  ⟨(read 1 "*".toList).mpr ⟨rfl, found⟩, found, step 1 found⟩

end CrossShade.Token
