/-
A text is a row of lexemes.

A scan answers with tokens, which carry the place where they stand and with it all the rest of the
text.  What a scan sees does not depend on places, only on the characters and on the last code
character before them, so it can be said as a plain list: `lexemes` is the row of lexemes that a
text is.  The tokens of a scan are that row, laid out from the place where the scan starts.

Four facts about rows carry everything that is said about windows later.  A row spells its text.  A
text that is cut off behind some lexemes still begins with these lexemes.  What follows some lexemes
is read the same when the scan starts there, as long as it starts with the right memory.  And the
memory only matters for the question whether a slash opens a regex, so a scan that starts afresh at
a character that settles the question sees what the scan of the whole text sees.
-/
import GroqSnippets.Proofs.Source.Extent
import GroqSnippets.Source.Token

namespace GroqSnippets

/-! ### Places further on -/

namespace Cursor

/-- Where a skip leads: past the characters that it skips, or to the end of the text. -/
theorem skip_eq (count : Nat) (place : Cursor) :
    place.skip count
      = ⟨place.offset + min count place.rest.length,
          ((place.rest.take count).getLast?).or place.before, place.rest.drop count⟩ := by
  fun_induction skip count place with
  | case1 place => simp
  | case2 => simp
  | case3 count offset before c rest ih =>
    rw [ih]
    simp only [List.length_cons, List.take_succ_cons, List.drop_succ_cons,
      Cursor.mk.injEq, and_true]
    refine ⟨by omega, ?_⟩
    rw [List.getLast?_cons]
    cases (rest.take count).getLast? <;> rfl

theorem offset_skip (count : Nat) (place : Cursor) :
    (place.skip count).offset = place.offset + min count place.rest.length := by
  rw [skip_eq]

theorem skip_skip (m n : Nat) (place : Cursor) : (place.skip m).skip n = place.skip (m + n) := by
  fun_induction skip m place with
  | case1 place => simp
  | case2 m offset before => cases n <;> simp [skip]
  | case3 m offset before c rest ih => rw [ih, Nat.succ_add, skip]

theorem rest_ofOffset (text : Text) (offset : Nat) :
    (ofOffset text offset).rest = text.drop offset := by
  simp [ofOffset, ofText, rest_skip]

theorem before_ofOffset (text : Text) (offset : Nat) :
    (ofOffset text offset).before = (text.take offset).getLast? := by
  rw [ofOffset, ofText, skip_eq]
  exact Option.or_none

theorem offset_ofOffset (text : Text) (offset : Nat) :
    (ofOffset text offset).offset = min offset text.length := by
  simp [ofOffset, ofText, offset_skip]

theorem ofOffset_skip (text : Text) (m n : Nat) :
    (ofOffset text m).skip n = ofOffset text (m + n) := by
  simp [ofOffset, skip_skip]

end Cursor

theorem before_skip_left {place : Cursor} {run more : Text} (hplace : place.rest = run ++ more) :
    (place.skip run.length).before = run.getLast?.or place.before := by
  rw [Cursor.skip_eq, hplace, List.take_left]

/-! ### Rows -/

def rowText (row : List Lexeme) : Text :=
  row.flatMap Lexeme.text

/-- The last code character that is not blank, once a row is read. -/
def lastAfterRow (last : Option Char) (row : List Lexeme) : Option Char :=
  row.foldl Lexeme.lastAfter last

/-- The row of lexemes that a text is, comments included. -/
def lexemes (last : Option Char) : Text → List Lexeme
  | [] => []
  | c :: rest =>
    let lexeme := Lexeme.first last c rest
    lexeme :: lexemes (lexeme.lastAfter last) ((c :: rest).drop lexeme.text.length)
termination_by text => text.length
decreasing_by
  have := List.length_pos_iff.mpr (Lexeme.text_first_ne_nil last c rest)
  simp only [List.length_drop, List.length_cons]
  omega

@[simp] theorem rowText_nil : rowText [] = [] := rfl

@[simp] theorem rowText_cons (lexeme : Lexeme) (row : List Lexeme) :
    rowText (lexeme :: row) = lexeme.text ++ rowText row := rfl

theorem length_rowText_code (c : Char) (row : List Lexeme) :
    (rowText (.code c :: row)).length = 1 + (rowText row).length := by
  rw [rowText_cons, List.length_append]
  rfl

@[simp] theorem rowText_append (a b : List Lexeme) : rowText (a ++ b) = rowText a ++ rowText b := by
  simp [rowText]

@[simp] theorem lastAfterRow_nil (last : Option Char) : lastAfterRow last [] = last := rfl

@[simp] theorem lastAfterRow_cons (last : Option Char) (lexeme : Lexeme) (row : List Lexeme) :
    lastAfterRow last (lexeme :: row) = lastAfterRow (lexeme.lastAfter last) row := rfl

@[simp] theorem lexemes_nil (last : Option Char) : lexemes last [] = [] := by
  rw [lexemes]

theorem lexemes_cons (last : Option Char) (c : Char) (rest : Text) :
    lexemes last (c :: rest)
      = Lexeme.first last c rest ::
          lexemes ((Lexeme.first last c rest).lastAfter last)
            ((c :: rest).drop (Lexeme.first last c rest).text.length) := by
  rw [lexemes]

/-- A row spells its text: nothing is lost. -/
theorem rowText_lexemes (last : Option Char) (text : Text) :
    rowText (lexemes last text) = text := by
  fun_induction lexemes last text with
  | case1 => rfl
  | case2 last c rest lexeme ih =>
    rw [rowText_cons, ih]
    exact List.prefix_iff_eq_append.mp (Lexeme.first_isPrefix last c rest)

/-- No lexeme of a text is empty. -/
theorem text_ne_nil_of_mem_lexemes {last : Option Char} {text : Text} {lexeme : Lexeme}
    (h : lexeme ∈ lexemes last text) : lexeme.text ≠ [] := by
  fun_induction lexemes last text with
  | case1 => cases h
  | case2 last c rest first ih =>
    rcases List.mem_cons.mp h with rfl | h
    · exact Lexeme.text_first_ne_nil last c rest
    · exact ih h

/-! ### Cutting a text off -/

/-- Cut off somewhere behind some lexemes, a text begins with the same lexemes. -/
theorem lexemes_cut :
    ∀ (row : List Lexeme) (last : Option Char) {kept lost : Text} {more : List Lexeme},
    lexemes last (rowText row ++ (kept ++ lost)) = row ++ more →
      lexemes last (rowText row ++ kept) = row ++ lexemes (lastAfterRow last row) kept := by
  intro row
  induction row with
  | nil => intro last kept lost more _; simp
  | cons lexeme row ih =>
    intro last kept lost more h
    obtain ⟨c, rest, htext⟩ : ∃ c rest, rowText (lexeme :: row) ++ (kept ++ lost) = c :: rest := by
      cases hall : rowText (lexeme :: row) ++ (kept ++ lost) with
      | nil => rw [hall, lexemes_nil] at h; cases h
      | cons c rest => exact ⟨c, rest, rfl⟩
    rw [htext, lexemes_cons, List.cons_append, List.cons.injEq] at h
    obtain ⟨hfirst, hmore⟩ := h
    -- The first lexeme is not empty, so it takes the first character along.
    obtain ⟨tail, hlexeme⟩ : ∃ tail, lexeme.text = c :: tail := by
      have hne := Lexeme.text_first_ne_nil last c rest
      rw [hfirst] at hne
      cases hlex : lexeme.text with
      | nil => exact absurd hlex hne
      | cons d tail => simp_all
    have hrest : rest = (tail ++ (rowText row ++ kept)) ++ lost := by simp_all
    have hsame : Lexeme.first last c (tail ++ (rowText row ++ kept)) = lexeme := by
      rw [hrest] at hfirst
      rw [Lexeme.first_append (w := lost) (by rw [hfirst, hlexeme]; simp), hfirst]
    have hdrop : rowText row ++ (kept ++ lost) = (c :: rest).drop lexeme.text.length := by
      rw [hrest, hlexeme]
      simp
    rw [hfirst, ← hdrop] at hmore
    rw [rowText_cons, hlexeme, List.cons_append, List.cons_append,
      List.append_assoc, lexemes_cons, hsame, hlexeme]
    simpa using ih (lexeme.lastAfter last) hmore

/-- What follows some lexemes is what a scan sees that starts there with their memory. -/
theorem lexemes_rowText_append {last : Option Char} {row more : List Lexeme}
    (h : lexemes last (rowText (row ++ more)) = row ++ more) :
    more = lexemes (lastAfterRow last row) (rowText more) := by
  have hwhole : lexemes last (rowText row ++ (rowText more ++ [])) = row ++ more := by simpa using h
  rw [rowText_append, lexemes_cut row last hwhole] at h
  exact (List.append_cancel_left h).symm

/-- A text that ends where a lexeme ends is the row of the lexemes up to there. -/
theorem lexemes_rowText_left {last : Option Char} {row more : List Lexeme}
    (h : lexemes last (rowText (row ++ more)) = row ++ more) :
    lexemes last (rowText row) = row := by
  have hwhole : lexemes last (rowText row ++ ([] ++ rowText more)) = row ++ more := by simpa using h
  simpa using lexemes_cut row last hwhole

/-! ### Starting afresh

A scan that starts anew has no memory.  Behind a character that settles what a slash is, it needs
none.
-/

theorem lexemes_congr {a b : Option Char} (h : opensRegex a = opensRegex b) (text : Text) :
    lexemes a text = lexemes b text := by
  fun_induction lexemes a text generalizing b with
  | case1 => simp
  | case2 a c rest lexeme =>
    rename_i ih
    have hfirst : Lexeme.first b c rest = lexeme := (Lexeme.first_congr h c rest).symm
    rw [lexemes_cons, hfirst]
    refine congrArg _ (ih ?_)
    cases hlexeme : lexeme with
    | code d =>
      by_cases hd : isBlank d = true
      · simpa [Lexeme.lastAfter, hd] using h
      · simp [Lexeme.lastAfter, hd]
    | comment _ => simpa [Lexeme.lastAfter] using h
    | quoted _ | regex _ => rfl

def isPlain (c : Char) : Bool :=
  !isQuote c && c != '/'

/-- Whether a plain character settles what a slash behind it is. -/
def isSettling (c : Char) : Bool :=
  isPlain c && !isBlank c

theorem Lexeme.first_of_isPlain {c : Char} (hc : isPlain c = true)
    (last : Option Char) (rest : Text) :
    Lexeme.first last c rest = .code c := by
  simp only [isPlain, Bool.and_eq_true, Bool.not_eq_true', bne_iff_ne, ne_eq] at hc
  simp [Lexeme.first, hc]

/-- Plain text is read character by character. -/
theorem lexemes_append_of_isPlain {text : Text} (h : ∀ c ∈ text, isPlain c = true)
    (last : Option Char) (more : Text) :
    lexemes last (text ++ more)
      = text.map .code ++ lexemes (lastAfterRow last (text.map .code)) more := by
  induction text generalizing last with
  | nil => rfl
  | cons c text ih =>
    obtain ⟨hc, htext⟩ := List.forall_mem_cons.mp h
    rw [List.cons_append, lexemes_cons, Lexeme.first_of_isPlain hc]
    simpa [Lexeme.text] using ih htext (Lexeme.lastAfter last (.code c))

/-- A scan that starts afresh at a settling character sees what the scan of the whole text sees. -/
theorem lexemes_of_isSettling {c : Char} (hc : isSettling c = true)
    (a b : Option Char) (rest : Text) :
    lexemes a (c :: rest) = lexemes b (c :: rest) := by
  simp only [isSettling, Bool.and_eq_true, Bool.not_eq_true'] at hc
  rw [lexemes_cons, lexemes_cons, Lexeme.first_of_isPlain hc.1, Lexeme.first_of_isPlain hc.1]
  simp [Lexeme.lastAfter, hc.2]

/-! ### Tokens are rows with places -/

/-- A row laid out from a place. -/
def placed (place : Cursor) : List Lexeme → List Token
  | [] => []
  | lexeme :: row => ⟨place, lexeme⟩ :: placed (place.skip lexeme.text.length) row

theorem lexemesFrom_eq (last : Option Char) (place : Cursor) :
    lexemesFrom last place = placed place (lexemes last place.rest) := by
  fun_induction lexemesFrom last place with
  | case1 last place hrest => simp [hrest, placed]
  | case2 last place c rest hrest lexeme ih =>
    rw [ih, hrest, lexemes_cons, placed, Cursor.rest_skip, hrest]

theorem placed_append (place : Cursor) (a b : List Lexeme) :
    placed place (a ++ b) = placed place a ++ placed (place.skip (rowText a).length) b := by
  induction a generalizing place with
  | nil => simp [placed, Cursor.skip]
  | cons lexeme a ih => simp [placed, ih, Cursor.skip_skip]

theorem exists_split_of_placed_eq_append {place : Cursor} {row : List Lexeme}
    {front back : List Token} {token : Token} (h : placed place row = front ++ token :: back) :
    ∃ before after, row = before ++ token.lexeme :: after ∧ front = placed place before
      ∧ token.place = place.skip (rowText before).length := by
  induction row generalizing place front with
  | nil => simp [placed] at h
  | cons lexeme row ih =>
    cases front with
    | nil =>
      obtain ⟨rfl, -⟩ := List.cons.inj h
      exact ⟨[], row, rfl, rfl, rfl⟩
    | cons first front =>
      obtain ⟨rfl, htail⟩ := List.cons.inj h
      obtain ⟨before, after, rfl, rfl, hplace⟩ := ih htail
      refine ⟨lexeme :: before, after, rfl, rfl, ?_⟩
      rw [hplace, Cursor.skip_skip, rowText_cons, List.length_append]

theorem mem_placed_iff {place : Cursor} {row : List Lexeme} {token : Token} :
    token ∈ placed place row ↔ ∃ before after, row = before ++ token.lexeme :: after
      ∧ token.place = place.skip (rowText before).length := by
  constructor
  · intro h
    obtain ⟨front, back, hsplit⟩ := List.append_of_mem h
    obtain ⟨before, after, hrow, -, hplace⟩ := exists_split_of_placed_eq_append hsplit
    exact ⟨before, after, hrow, hplace⟩
  · rintro ⟨before, after, rfl, hplace⟩
    rw [placed_append, placed, ← hplace]
    simp

end GroqSnippets
