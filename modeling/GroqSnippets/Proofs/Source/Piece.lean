/-
What stands directly in a block, in pieces.

The direct text of a block is what is left of it when brackets, their contents and comments are
taken away.  What is left is joined without anything in between, so two characters may be
neighbours there that are none in the block.

Here the same text is kept in pieces, one for each stretch that nothing was taken from.  A piece is
a stretch of the block.  Before it stands a bracket or a comment, so where a word begins at the head
of a piece, a word begins in the block as well: a bracket is no part of a word, nor is the end of a
comment, unless the comment ends with its line, and then the piece begins with a line feed.
-/
import GroqSnippets.Proofs.Source.Passage
import GroqSnippets.Proofs.Source.Stretch

namespace GroqSnippets

/-! ### Pieces of a row -/

/-- Pieces, the first of which has a text in front. -/
def extendFirst (text : Text) : List Text → List Text
  | [] => [text]
  | piece :: pieces => (text ++ piece) :: pieces

/-- What stands at depth one in a row, up to the bracket that closes the first one.  A new piece
begins behind each bracket and each comment. -/
def piecesOf (depth : Nat) : List Lexeme → List Text
  | [] => [[]]
  | .code c :: row =>
    if isOpener c then [] :: piecesOf (depth + 1) row
    else if isCloser c then if depth = 1 then [[]] else [] :: piecesOf (depth - 1) row
    else if depth = 1 then extendFirst [c] (piecesOf depth row)
    else piecesOf depth row
  | .comment _ :: row => [] :: piecesOf depth row
  | lexeme :: row =>
    if depth = 1 then extendFirst lexeme.text (piecesOf depth row) else piecesOf depth row

/-- What stands directly in a block, in pieces. -/
def directPieces (block : Text) : List Text :=
  if block.contains '{' then piecesOf 0 (lexemes none ((Cursor.ofText block).seek '{').rest)
  else [block]

theorem flatten_extendFirst (text : Text) (pieces : List Text) :
    (extendFirst text pieces).flatten = text ++ pieces.flatten := by
  cases pieces with
  | nil => simp [extendFirst]
  | cons piece pieces => simp [extendFirst]

theorem flatten_piecesOf (depth : Nat) (row : List Lexeme) :
    (piecesOf depth row).flatten = directOf depth row := by
  induction row generalizing depth with
  | nil => rfl
  | cons lexeme row ih =>
    cases lexeme with
    | comment text => exact ih depth
    | code c =>
      simp only [piecesOf, directOf]
      split
      · exact ih (depth + 1)
      · split
        · split
          · rfl
          · exact ih (depth - 1)
        · split
          · rw [flatten_extendFirst, ih]
            rfl
          · exact ih depth
    | quoted text | regex text =>
      simp only [piecesOf, directOf]
      split
      · rw [flatten_extendFirst, ih]
      · exact ih depth

theorem flatten_directPieces (block : Text) : (directPieces block).flatten = directText block := by
  unfold directPieces directText
  by_cases hbrace : block.contains '{' = true
  · rw [if_pos hbrace, if_pos hbrace, tokens_eq_rowTokens, directTextAmong_eq, flatten_piecesOf]
  · rw [if_neg hbrace, if_neg hbrace, List.flatten_singleton]

/-! ### Where a piece stands

A key in a piece has to be a key of the text as well.  So no word may go on in front of the piece
when one begins at its head.
-/

/-- Whether a piece is a stretch of a text, with a word beginning in the text where one begins at the
head of the piece. -/
def Stands (text piece : Text) : Prop :=
  ∃ a b, text = a ++ (piece ++ b) ∧ (piece.head?.any isWordChar = true → a ≠ [] ∧ Breaks a)

namespace Stands

variable {text piece : Text}

theorem append_left (front : Text) (h : Stands text piece) : Stands (front ++ text) piece := by
  obtain ⟨a, b, rfl, hhead⟩ := h
  refine ⟨front ++ a, b, by rw [List.append_assoc], ?_⟩
  intro hword
  obtain ⟨hne, hbreaks⟩ := hhead hword
  refine ⟨List.append_ne_nil_of_right_ne_nil front hne, ?_⟩
  rw [Breaks, List.getLast?_append_of_ne_nil front hne]
  exact hbreaks

theorem append_right (h : Stands text piece) (back : Text) : Stands (text ++ back) piece := by
  obtain ⟨a, b, rfl, hhead⟩ := h
  exact ⟨a, b ++ back, by simp, hhead⟩

/-- What stands at the head of a text stands in it behind a text that no word continues. -/
theorem of_head {front : Text} (hpiece : piece <+: text)
    (hfront : text.head?.any isWordChar = true → front ≠ [] ∧ Breaks front) :
    Stands (front ++ text) piece := by
  obtain ⟨b, rfl⟩ := hpiece
  refine ⟨front, b, rfl, ?_⟩
  intro hword
  cases piece with
  | nil => cases hword
  | cons c piece => exact hfront hword

end Stands

/-! ### The end of a comment -/

theorem Lexeme.first_eq_comment {last : Option Char} {c : Char} {rest text : Text}
    (h : first last c rest = .comment text) :
    (∃ line, rest = '/' :: line ∧ text = '/' :: '/' :: line.takeWhile (· != '\n'))
      ∨ ∃ body, rest = '*' :: body ∧ text = '/' :: '*' :: blockCommentRest body := by
  unfold first at h
  split at h
  · cases h
  · split at h
    · unfold ofSlash at h
      split at h
      · exact .inl ⟨_, rfl, (comment.inj h).symm⟩
      · exact .inr ⟨_, rfl, (comment.inj h).symm⟩
      · split at h <;> cases h
    · cases h

/-- Behind the rest of a line comes a line feed, which is no part of a word. -/
theorem not_isWordChar_of_line {line more : Text} (h : line = line.takeWhile (· != '\n') ++ more) :
    more.head?.any isWordChar = false := by
  obtain ⟨behind, hbehind, -, hend⟩ := takeWhile_eq_iff.mp (rfl : line.takeWhile (· != '\n') = _)
  obtain rfl : behind = more := List.append_cancel_left (hbehind.symm.trans h)
  cases behind with
  | nil => rfl
  | cons d behind =>
    obtain rfl : d = '\n' := by simpa using hend d rfl
    show isWordChar '\n' = false
    decide +kernel

/-- A block comment that does not take the rest of the text ends in a slash. -/
theorem Lexeme.getLast?_blockCommentRest {rest more : Text}
    (hrest : rest = blockCommentRest rest ++ more) (hmore : more ≠ []) :
    (blockCommentRest rest).getLast? = some '/' := by
  fun_induction blockCommentRest rest with
  | case1 => exact absurd (List.nil_eq_append_iff.mp hrest).2 hmore
  | case2 => rfl
  | case3 c rest hend ih =>
    rw [List.getLast?_cons, ih (List.cons.inj hrest).2, Option.getD_some]

theorem breaks_comment {last : Option Char} {text : Text} {row : List Lexeme}
    (h : lexemes last (rowText (.comment text :: row)) = .comment text :: row)
    (hword : (rowText row).head?.any isWordChar = true) : text ≠ [] ∧ Breaks text := by
  have hne : text ≠ [] := Reads.ne_nil ⟨last, h⟩ (.comment text) List.mem_cons_self
  refine ⟨hne, ?_⟩
  obtain ⟨c, rest, hsplit⟩ : ∃ c rest, text ++ rowText row = c :: rest :=
    List.exists_cons_of_ne_nil (List.append_ne_nil_of_left_ne_nil hne _)
  have hfirst : Lexeme.first last c rest = .comment text := by
    have hrow : lexemes last (text ++ rowText row) = .comment text :: row := h
    rw [hsplit, lexemes_cons] at hrow
    exact (List.cons.inj hrow).1
  rcases Lexeme.first_eq_comment hfirst with ⟨line, rfl, rfl⟩ | ⟨body, rfl, rfl⟩
  · have hline := not_isWordChar_of_line (List.cons.inj (List.cons.inj hsplit).2).2.symm
    rw [hword] at hline
    cases hline
  · -- The comment is closed, since it does not take the rest of the text.
    have hmore : rowText row ≠ [] := by
      intro hnil
      rw [hnil] at hword
      cases hword
    have hend := Lexeme.getLast?_blockCommentRest (List.cons.inj (List.cons.inj hsplit).2).2.symm hmore
    intro d hd
    rw [List.getLast?_cons, List.getLast?_cons, hend] at hd
    obtain rfl : '/' = d := by simpa using hd
    decide +kernel

/-! ### Every piece stands in its block

A piece begins behind a bracket or a comment.  A line comment ends in front of a line feed and a
block comment behind a slash, so neither can cut a word.
-/

/-- A bracket is no part of a word. -/
theorem breaks_bracket {c : Char} (h : isOpener c = true ∨ isCloser c = true) : Breaks [c] := by
  intro d hd
  obtain rfl : c = d := by simpa using hd
  simp only [isOpener, isCloser, Bool.or_eq_true, beq_iff_eq] at h
  rcases h with ((rfl | rfl) | rfl) | (rfl | rfl) | rfl <;> decide +kernel

/-- Whether pieces lie in a row: the first one at its head, and empty away from depth one, and the
others anywhere, with no word cut by their heads. -/
def LaidOut (depth : Nat) (row : List Lexeme) (pieces : List Text) : Prop :=
  ∃ first more, pieces = first :: more ∧ first <+: rowText row ∧ (depth ≠ 1 → first = [])
    ∧ ∀ piece ∈ more, Stands (rowText row) piece

namespace LaidOut

variable {depth next : Nat} {lexeme : Lexeme} {row : List Lexeme} {pieces : List Text}

/-- Behind a lexeme that is taken away and cuts no word, a new piece begins. -/
theorem cut (h : LaidOut next row pieces)
    (hword : (rowText row).head?.any isWordChar = true → lexeme.text ≠ [] ∧ Breaks lexeme.text) :
    LaidOut depth (lexeme :: row) ([] :: pieces) := by
  obtain ⟨first, more, rfl, hfirst, -, hall⟩ := h
  refine ⟨[], first :: more, rfl, List.nil_prefix, fun _ => rfl, ?_⟩
  intro piece hpiece
  rcases List.mem_cons.mp hpiece with rfl | hpiece
  · exact .of_head hfirst hword
  · exact (hall piece hpiece).append_left lexeme.text

/-- A lexeme at depth one is added to the first piece. -/
theorem extend (h : LaidOut 1 row pieces) :
    LaidOut 1 (lexeme :: row) (extendFirst lexeme.text pieces) := by
  obtain ⟨first, more, rfl, hfirst, -, hall⟩ := h
  refine ⟨lexeme.text ++ first, more, rfl, (List.prefix_append_right_inj _).mpr hfirst,
    fun hne => absurd rfl hne, ?_⟩
  intro piece hpiece
  exact (hall piece hpiece).append_left lexeme.text

/-- A lexeme elsewhere is left out, and the first piece is empty before it and behind it. -/
theorem pass (h : LaidOut depth row pieces) (hdepth : depth ≠ 1) :
    LaidOut depth (lexeme :: row) pieces := by
  obtain ⟨first, more, rfl, -, hempty, hall⟩ := h
  obtain rfl := hempty hdepth
  refine ⟨[], more, rfl, List.nil_prefix, fun _ => rfl, ?_⟩
  intro piece hpiece
  exact (hall piece hpiece).append_left lexeme.text

theorem empty (row : List Lexeme) : LaidOut depth row [[]] :=
  ⟨[], [], rfl, List.nil_prefix, fun _ => rfl, by simp⟩

end LaidOut

theorem laidOut_piecesOf {row : List Lexeme} (h : Reads row) (depth : Nat) :
    LaidOut depth row (piecesOf depth row) := by
  induction row generalizing depth with
  | nil => exact .empty []
  | cons lexeme row ih =>
    have hrow : Reads row := h.right (a := [lexeme])
    cases lexeme with
    | comment text =>
      obtain ⟨last, hlast⟩ := h
      exact (ih hrow depth).cut (breaks_comment hlast)
    | code c =>
      have hbracket (hc : isOpener c = true ∨ isCloser c = true) :
          (rowText row).head?.any isWordChar = true → [c] ≠ [] ∧ Breaks [c] :=
        fun _ => ⟨List.cons_ne_nil _ _, breaks_bracket hc⟩
      simp only [piecesOf]
      split
      · rename_i hopen
        exact (ih hrow _).cut (hbracket (.inl hopen))
      · split
        · rename_i hclose
          split
          · exact .empty _
          · exact (ih hrow _).cut (hbracket (.inr hclose))
        · split
          · rename_i hdepth
            subst hdepth
            exact (ih hrow 1).extend
          · rename_i hdepth
            exact (ih hrow depth).pass hdepth
    | quoted text | regex text =>
      simp only [piecesOf]
      split
      · rename_i hdepth
        subst hdepth
        exact (ih hrow 1).extend
      · rename_i hdepth
        exact (ih hrow depth).pass hdepth

/-- **Every piece stands in its block**, and no word of the block is cut by its head. -/
theorem stands_of_mem_directPieces {block piece : Text} (hbrace : block.contains '{' = true)
    (h : piece ∈ directPieces block) : Stands block piece := by
  rw [directPieces, if_pos hbrace] at h
  obtain ⟨first, pieces, hpieces, -, hempty, hall⟩ :=
    laidOut_piecesOf (Reads.of_text none ((Cursor.ofText block).seek '{').rest) 0
  have hsuffix : block = block.take (block.takeWhile (· != '{')).length
      ++ rowText (lexemes none ((Cursor.ofText block).seek '{').rest) := by
    rw [rowText_lexemes, Cursor.seek, Cursor.rest_skip]
    exact (List.take_append_drop _ block).symm
  rw [hpieces] at h
  rw [hsuffix]
  rcases List.mem_cons.mp h with rfl | h
  · rw [hempty (by decide)]
    exact ⟨[], _, rfl, fun hword => absurd hword (by simp)⟩
  · exact (hall piece h).append_left _

end GroqSnippets
