/-
Brackets in a row.

Whether a bracket is closed is a matter of the depth that a row of lexemes runs through.  A row
stays open from some depth when none of its brackets brings the depth to zero; the bracket that
closes is then the first one behind a row that stays open.  Said this way the search for it
composes: a row in two parts stays open when the first part does and the second does from the depth
where the first one ends.

A row that stays open from a positive depth ends at a positive depth.  That is what makes brackets
nest: the depth cannot drop to zero without passing through every depth in between.
-/
import GroqSnippets.Proofs.Source.Row
import GroqSnippets.Source.Bracket

namespace GroqSnippets

/-- Whether no bracket of a row brings the depth to zero. -/
def StaysOpen : (depth : Int) → List Lexeme → Prop
  | _, [] => True
  | depth, lexeme :: row => closesAt depth lexeme = false ∧ StaysOpen (depthAfter depth lexeme) row

/-- The depth once a row is read. -/
def depthThrough (depth : Int) (row : List Lexeme) : Int :=
  row.foldl depthAfter depth

@[simp] theorem depthThrough_nil (depth : Int) : depthThrough depth [] = depth := rfl

@[simp] theorem depthThrough_cons (depth : Int) (lexeme : Lexeme) (row : List Lexeme) :
    depthThrough depth (lexeme :: row) = depthThrough (depthAfter depth lexeme) row := rfl

@[simp] theorem depthThrough_append (depth : Int) (a b : List Lexeme) :
    depthThrough depth (a ++ b) = depthThrough (depthThrough depth a) b := by
  simp [depthThrough]

@[simp] theorem staysOpen_cons (depth : Int) (lexeme : Lexeme) (row : List Lexeme) :
    StaysOpen depth (lexeme :: row)
      ↔ closesAt depth lexeme = false ∧ StaysOpen (depthAfter depth lexeme) row := Iff.rfl

@[simp] theorem staysOpen_append (depth : Int) (a b : List Lexeme) :
    StaysOpen depth (a ++ b) ↔ StaysOpen depth a ∧ StaysOpen (depthThrough depth a) b := by
  induction a generalizing depth with
  | nil =>
    rw [depthThrough_nil, List.nil_append]
    exact ⟨fun h => ⟨trivial, h⟩, And.right⟩
  | cons lexeme a ih => simp [ih, and_assoc]

/-! ### Depths -/

theorem depthAfter_add (depth shift : Int) (lexeme : Lexeme) :
    depthAfter (depth + shift) lexeme = depthAfter depth lexeme + shift := by
  unfold depthAfter
  cases lexeme with
  | code c =>
    simp only
    split
    · omega
    · split <;> omega
  | quoted _ | regex _ | comment _ => rfl

theorem depthThrough_add (depth shift : Int) (row : List Lexeme) :
    depthThrough (depth + shift) row = depthThrough depth row + shift := by
  induction row generalizing depth with
  | nil => rfl
  | cons lexeme row ih => rw [depthThrough_cons, depthThrough_cons, depthAfter_add, ih]

/-- One lexeme that does not close leaves a positive depth positive. -/
theorem one_le_depthAfter {depth : Int} {lexeme : Lexeme} (hopen : closesAt depth lexeme = false)
    (hdepth : 1 ≤ depth) : 1 ≤ depthAfter depth lexeme := by
  cases lexeme with
  | code c =>
    simp only [closesAt, Bool.and_eq_false_iff, beq_eq_false_iff_ne] at hopen
    simp only [depthAfter]
    split
    · omega
    · split
      · rcases hopen with hc | hne
        · simp_all
        · omega
      · omega
  | quoted _ | regex _ | comment _ => exact hdepth

/-- A row that stays open from a positive depth ends at a positive depth. -/
theorem one_le_depthThrough {depth : Int} {row : List Lexeme} (hopen : StaysOpen depth row)
    (hdepth : 1 ≤ depth) : 1 ≤ depthThrough depth row := by
  induction row generalizing depth with
  | nil => exact hdepth
  | cons lexeme row ih => exact ih hopen.2 (one_le_depthAfter hopen.1 hdepth)

theorem closesAt_iff {depth : Int} {lexeme : Lexeme} :
    closesAt depth lexeme = true ↔ ∃ c, lexeme = .code c ∧ isCloser c = true ∧ depth = 1 := by
  cases lexeme <;> simp [closesAt]

theorem not_isCloser_of_isOpener {c : Char} (h : isOpener c = true) : isCloser c = false := by
  simp only [isOpener, Bool.or_eq_true, beq_iff_eq] at h
  rcases h with (rfl | rfl) | rfl <;> decide

theorem not_isOpener_of_isCloser {c : Char} (h : isCloser c = true) : isOpener c = false := by
  simp only [isCloser, Bool.or_eq_true, beq_iff_eq] at h
  rcases h with (rfl | rfl) | rfl <;> decide

theorem depthAfter_of_isOpener {c : Char} (h : isOpener c = true) (depth : Int) :
    depthAfter depth (.code c) = depth + 1 := by
  simp [depthAfter, h]

theorem depthAfter_of_isCloser {c : Char} (h : isCloser c = true) (depth : Int) :
    depthAfter depth (.code c) = depth - 1 := by
  simp [depthAfter, h, not_isOpener_of_isCloser h]

theorem closesAt_of_isOpener {c : Char} (h : isOpener c = true) (depth : Int) :
    closesAt depth (.code c) = false := by
  simp [closesAt, not_isCloser_of_isOpener h]

/-! ### The search for the closing bracket

A row falls apart at its closing bracket, and in front of that it stays open.  This is how the
search is used everywhere below.
-/

theorem closingAmong_filter (depth : Int) (tokens : List Token) :
    closingAmong depth (tokens.filter fun token => !token.lexeme.isComment)
      = closingAmong depth tokens := by
  induction tokens generalizing depth with
  | nil => rfl
  | cons token tokens ih =>
    rw [List.filter_cons]
    cases hcomment : token.lexeme.isComment with
    | true =>
      obtain ⟨text, hlexeme⟩ : ∃ text, token.lexeme = .comment text := by
        cases hlexeme : token.lexeme <;> simp_all [Lexeme.isComment]
      simp [closingAmong, hlexeme, closesAt, depthAfter, ih]
    | false => simp [closingAmong, ih]

/-- A part of a row that stays open is passed over. -/
theorem closingAmong_placed_append {depth : Int} {row : List Lexeme} (hopen : StaysOpen depth row)
    (place : Cursor) (more : List Lexeme) :
    closingAmong depth (placed place (row ++ more))
      = closingAmong (depthThrough depth row) (placed (place.skip (rowText row).length) more) := by
  induction row generalizing depth place with
  | nil => rfl
  | cons lexeme row ih =>
    simp only [List.cons_append, placed, closingAmong, hopen.1, Bool.false_eq_true, if_false]
    rw [ih hopen.2, Cursor.skip_skip, rowText_cons, List.length_append, depthThrough_cons]

theorem closingAmong_placed_of_staysOpen {depth : Int} {row : List Lexeme}
    (hopen : StaysOpen depth row) (place : Cursor) :
    closingAmong depth (placed place row) = none := by
  simpa [placed, closingAmong] using closingAmong_placed_append hopen place []

/-- Behind a part that stays open, a bracket that brings the depth to zero is the closing one. -/
theorem closingAmong_placed_closer {depth : Int} {row : List Lexeme} {lexeme : Lexeme}
    (hopen : StaysOpen depth row) (hclose : closesAt (depthThrough depth row) lexeme = true)
    (place : Cursor) (more : List Lexeme) :
    closingAmong depth (placed place (row ++ lexeme :: more))
      = some (place.skip (rowText row).length) := by
  rw [closingAmong_placed_append hopen, placed, closingAmong, if_pos hclose]

/-- A row either stays open, or falls into a part that does, the closing bracket, and the rest. -/
theorem staysOpen_or_split (depth : Int) (row : List Lexeme) :
    StaysOpen depth row ∨ ∃ inner lexeme more, row = inner ++ lexeme :: more ∧ StaysOpen depth inner
      ∧ closesAt (depthThrough depth inner) lexeme = true := by
  induction row generalizing depth with
  | nil => exact Or.inl trivial
  | cons lexeme row ih =>
    cases hclose : closesAt depth lexeme with
    | true => exact Or.inr ⟨[], lexeme, row, rfl, trivial, hclose⟩
    | false =>
      rcases ih (depthAfter depth lexeme) with hopen | ⟨inner, closer, more, rfl, hopen, hcloser⟩
      · exact Or.inl ⟨hclose, hopen⟩
      · exact Or.inr ⟨lexeme :: inner, closer, more, rfl, ⟨hclose, hopen⟩, hcloser⟩

theorem closing?_eq_placed (place : Cursor) :
    place.closing? = closingAmong 0 (placed place (lexemes none place.rest)) := by
  rw [Cursor.closing?_eq, Cursor.tokens, closingAmong_filter, lexemesFrom_eq]

/-! ### Offsets of closing brackets -/

/-- A bracket that nothing closes reaches to the end of the text. -/
theorem closingOffset_of_staysOpen {text : Text} {offset : Nat}
    (hopen : StaysOpen 0 (lexemes none (text.drop offset))) :
    closingOffset text offset = text.length := by
  unfold closingOffset
  rw [closing?_eq_placed, Cursor.rest_ofOffset, closingAmong_placed_of_staysOpen hopen]

theorem closingOffset_of_split {text : Text} {offset : Nat}
    {inner more : List Lexeme} {lexeme : Lexeme}
    (hrow : lexemes none (text.drop offset) = inner ++ lexeme :: more) (hopen : StaysOpen 0 inner)
    (hclose : closesAt (depthThrough 0 inner) lexeme = true) :
    closingOffset text offset = offset + (rowText inner).length := by
  have hmem : lexeme ∈ lexemes none (text.drop offset) := by simp [hrow]
  have hlexeme : 0 < lexeme.text.length := List.length_pos_iff.mpr (text_ne_nil_of_mem_lexemes hmem)
  have htext : text.drop offset = rowText inner ++ (lexeme.text ++ rowText more) := by
    rw [← rowText_lexemes none (text.drop offset), hrow]
    simp
  have hlength := congrArg List.length htext
  simp only [List.length_drop, List.length_append] at hlength
  unfold closingOffset
  rw [closing?_eq_placed, Cursor.rest_ofOffset, hrow, closingAmong_placed_closer hopen hclose]
  simp only [Cursor.offset_skip, Cursor.offset_ofOffset, Cursor.rest_ofOffset, List.length_drop]
  omega

end GroqSnippets
