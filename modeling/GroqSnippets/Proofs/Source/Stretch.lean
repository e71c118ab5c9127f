/-
Windows are stretches of a row.

The reader looks for brackets among tokens, cuts texts out between them, and scans the pieces again.
The row of the text tells what it will cut without any of that: up to its partner a bracket holds a
stretch of the row, the objects of a list are such stretches, and what stands directly in a block
can be read off its row.  And a stretch that begins at a bracket, or behind one, is the row of the
text that it spells, so the next cut is again told by a row.

Here the cuts are said for rows, and each is shown to be what the reader cuts out.
-/
import GroqSnippets.Proofs.Source.Balance
import GroqSnippets.Proofs.Source.Block
import GroqSnippets.Proofs.Source.Partner

namespace GroqSnippets

/-! ### Rows that read as themselves

Not every row is what a scan sees, since its lexemes may run into each other as text.  Whatever is
cut out of a row that a scan sees is one again.
-/

/-- Whether a row is what a scan of its text sees, for some memory. -/
def Reads (row : List Lexeme) : Prop :=
  ∃ last, lexemes last (rowText row) = row

namespace Reads

variable {a b row : List Lexeme} {c : Char}

theorem of_text (last : Option Char) (text : Text) : Reads (lexemes last text) :=
  ⟨last, by rw [rowText_lexemes]⟩

theorem left (h : Reads (a ++ b)) : Reads a := by
  obtain ⟨last, h⟩ := h
  exact ⟨last, lexemes_rowText_left h⟩

theorem right (h : Reads (a ++ b)) : Reads b := by
  obtain ⟨last, h⟩ := h
  exact ⟨_, (lexemes_rowText_append h).symm⟩

theorem ne_nil (h : Reads row) : ∀ lexeme ∈ row, lexeme.text ≠ [] := by
  obtain ⟨last, h⟩ := h
  intro lexeme hmem
  rw [← h] at hmem
  exact text_ne_nil_of_mem_lexemes hmem

/-- From a settling character on, a fresh scan will do. -/
theorem of_isSettling (h : Reads (.code c :: row)) (hc : isSettling c = true) :
    lexemes none (rowText (.code c :: row)) = .code c :: row := by
  obtain ⟨last, h⟩ := h
  exact (lexemes_of_isSettling hc none last (rowText row)).trans h

/-- And so it will behind an opening bracket. -/
theorem of_isOpener (h : Reads (.code c :: row)) (hc : isOpener c = true) :
    lexemes none (rowText row) = row := by
  obtain ⟨last, h⟩ := h
  have hsplit : lexemes last (rowText ([.code c] ++ row)) = [.code c] ++ row := h
  have hrow := lexemes_rowText_append hsplit
  rw [lastAfterRow_cons, lastAfter_of_isSettling (isSettling_of_isOpener hc),
    lastAfterRow_nil] at hrow
  rw [lexemes_congr (b := some c) (by rw [opensRegex_of_isOpener hc]; rfl), ← hrow]

end Reads

/-! ### Up to the closing bracket -/

/-- The part of a row before the bracket that brings the depth to zero. -/
def held (depth : Int) : List Lexeme → List Lexeme
  | [] => []
  | lexeme :: row =>
    if closesAt depth lexeme then [] else lexeme :: held (depthAfter depth lexeme) row

/-- The part of a row through the bracket that brings the depth to zero. -/
def through (depth : Int) : List Lexeme → List Lexeme
  | [] => []
  | lexeme :: row =>
    if closesAt depth lexeme then [lexeme] else lexeme :: through (depthAfter depth lexeme) row

/-- The part of a row behind the bracket that brings the depth to zero. -/
def beyond (depth : Int) : List Lexeme → List Lexeme
  | [] => []
  | lexeme :: row =>
    if closesAt depth lexeme then row else beyond (depthAfter depth lexeme) row

theorem through_append_beyond (depth : Int) (row : List Lexeme) :
    through depth row ++ beyond depth row = row := by
  fun_induction through depth row with
  | case1 => rfl
  | case2 depth lexeme row hclose => simp [beyond, hclose]
  | case3 depth lexeme row hclose ih => simp [beyond, hclose, ih]

theorem held_isPrefix (depth : Int) (row : List Lexeme) : held depth row <+: row := by
  fun_induction held depth row with
  | case1 => exact List.prefix_rfl
  | case2 => exact List.nil_prefix
  | case3 depth lexeme row hclose ih => exact (List.prefix_cons_inj _).mpr ih

theorem length_beyond_le (depth : Int) (row : List Lexeme) :
    (beyond depth row).length ≤ row.length := by
  have hlength := congrArg List.length (through_append_beyond depth row)
  rw [List.length_append] at hlength
  omega

/-- Past a part that stays open, the cuts are those of what follows it. -/
theorem cut_append {depth : Int} {a : List Lexeme} (h : StaysOpen depth a) (b : List Lexeme) :
    held depth (a ++ b) = a ++ held (depthThrough depth a) b
      ∧ through depth (a ++ b) = a ++ through (depthThrough depth a) b
      ∧ beyond depth (a ++ b) = beyond (depthThrough depth a) b := by
  induction a generalizing depth with
  | nil => exact ⟨rfl, rfl, rfl⟩
  | cons lexeme a ih =>
    obtain ⟨hheld, hthrough, hbeyond⟩ := ih h.2
    simp [held, through, beyond, h.1, hheld, hthrough, hbeyond]

theorem cut_of_staysOpen {depth : Int} {row : List Lexeme} (h : StaysOpen depth row) :
    held depth row = row ∧ through depth row = row ∧ beyond depth row = [] := by
  simpa [held, through, beyond] using cut_append h []

theorem cut_of_split {depth : Int} {inner : List Lexeme} {lexeme : Lexeme}
    (hopen : StaysOpen depth inner) (hclose : closesAt (depthThrough depth inner) lexeme = true)
    (more : List Lexeme) :
    held depth (inner ++ lexeme :: more) = inner
      ∧ through depth (inner ++ lexeme :: more) = inner ++ [lexeme]
      ∧ beyond depth (inner ++ lexeme :: more) = more := by
  simpa [held, through, beyond, hclose] using cut_append hopen (lexeme :: more)

/-- Where the bracket at the head of a row is closed. -/
theorem closing_cases {c : Char} (hc : isOpener c = true) (place : Cursor) (row : List Lexeme) :
    closingAmong 0 (placed place (.code c :: row)) = none
        ∧ held 1 row = row ∧ through 1 row = row ∧ beyond 1 row = []
      ∨ ∃ close, closingAmong 0 (placed place (.code c :: row)) = some close
        ∧ close = place.skip (1 + (rowText (held 1 row)).length)
        ∧ close.skip 1 = place.skip (1 + (rowText (through 1 row)).length)
        ∧ (rowText (through 1 row)).length = (rowText (held 1 row)).length + 1 := by
  have hdepth : depthAfter 0 (.code c) = 1 := depthAfter_of_isOpener hc 0
  rcases staysOpen_or_split 1 row with hopen | ⟨inner, lexeme, more, rfl, hopen, hclose⟩
  · have hall : StaysOpen 0 (.code c :: row) := ⟨closesAt_of_isOpener hc 0, hdepth.symm ▸ hopen⟩
    exact Or.inl ⟨closingAmong_placed_of_staysOpen hall place, cut_of_staysOpen hopen⟩
  · obtain ⟨closer, rfl, -, -⟩ := closesAt_iff.mp hclose
    obtain ⟨hheld, hthrough, -⟩ := cut_of_split hopen hclose more
    have hall : StaysOpen 0 (.code c :: inner) := ⟨closesAt_of_isOpener hc 0, hdepth.symm ▸ hopen⟩
    have hclosed : closesAt (depthThrough 0 (.code c :: inner)) (.code closer) = true := by
      rwa [depthThrough_cons, hdepth]
    have hfound := closingAmong_placed_closer hall hclosed place more
    have hlonger : (rowText (inner ++ [.code closer])).length = (rowText inner).length + 1 := by
      rw [rowText_append, List.length_append]
      rfl
    rw [length_rowText_code] at hfound
    rw [hheld, hthrough, hlonger]
    exact Or.inr ⟨_, hfound, rfl, by rw [Cursor.skip_skip, Nat.add_assoc], rfl⟩

/-- Text between two places. -/
theorem upTo_skip {place : Cursor} {run more : Text} (h : place.rest = run ++ more) :
    place.upTo (place.skip run.length) = run := by
  rw [Cursor.upTo, Cursor.offset_skip, h, List.length_append, Nat.add_sub_cancel_left,
    Nat.min_eq_left (Nat.le_add_right _ _), List.take_left]

section

variable {place : Cursor} {c : Char} {row : List Lexeme}

/-- What a bracket holds is what is cut out between it and its partner. -/
theorem window_eq_held (hc : isOpener c = true)
    (hplace : lexemes none place.rest = .code c :: row) :
    (place.skip 1).window place.closing? = rowText (held 1 row) := by
  have hrest : (place.skip 1).rest = rowText row := by
    rw [Cursor.rest_skip, ← rowText_lexemes none place.rest, hplace]
    rfl
  rw [closing?_eq_placed, hplace]
  rcases closing_cases hc place row with ⟨hnone, hheld, -⟩ | ⟨close, hclose, hat, -⟩
  · rw [hnone, hheld]
    exact hrest
  · obtain ⟨more, hmore⟩ := held_isPrefix 1 row
    rw [← hmore, rowText_append] at hrest
    rw [hclose, hat, ← Cursor.skip_skip]
    exact upTo_skip hrest

end

/-! ### The tokens of a row -/

/-- The tokens of a row laid out from a place: its lexemes without the comments. -/
def rowTokens (place : Cursor) (row : List Lexeme) : List Token :=
  (placed place row).filter fun token => !token.lexeme.isComment

theorem tokens_eq_rowTokens (place : Cursor) :
    place.tokens = rowTokens place (lexemes none place.rest) := by
  rw [Cursor.tokens, lexemesFrom_eq]
  rfl

theorem rowTokens_comment (place : Cursor) (text : Text) (row : List Lexeme) :
    rowTokens place (.comment text :: row) = rowTokens (place.skip text.length) row := rfl

theorem rowTokens_cons {lexeme : Lexeme} (h : lexeme.isComment = false) (place : Cursor)
    (row : List Lexeme) :
    rowTokens place (lexeme :: row)
      = ⟨place, lexeme⟩ :: rowTokens (place.skip lexeme.text.length) row := by
  rw [rowTokens, placed, List.filter_cons, h]
  rfl

theorem rowTokens_append (place : Cursor) (a b : List Lexeme) :
    rowTokens place (a ++ b)
      = rowTokens place a ++ rowTokens (place.skip (rowText a).length) b := by
  rw [rowTokens, placed_append, List.filter_append]
  rfl

/-- The tokens of a stretch stand before the place behind it. -/
theorem offset_lt_of_mem_rowTokens {place : Cursor} {a b : List Lexeme}
    (hne : ∀ lexeme ∈ a, lexeme.text ≠ []) (hplace : place.rest = rowText (a ++ b)) :
    ∀ token ∈ rowTokens place a, token.place.offset < place.offset + (rowText a).length := by
  intro token htoken
  have hmem : (token.place.offset, token.lexeme) ∈ located place.offset a := by
    rw [← map_placed place a (rowText b) (by rw [hplace, rowText_append])]
    exact List.mem_map_of_mem (List.mem_filter.mp htoken).1
  exact (offset_of_mem_located hne hmem).2

/-! ### Objects -/

/-- The objects of a list, as stretches of its row. -/
def objectRows (depth : Nat) (row : List Lexeme) : List (List Lexeme) :=
  match row with
  | [] => []
  | lexeme :: row =>
    match lexeme with
    | .code '{' =>
      if depth = 0 then (.code '{' :: through 1 row) :: objectRows 0 (beyond 1 row)
      else objectRows (depth + 1) row
    | .code '[' => objectRows (depth + 1) row
    | .code '}' | .code ']' => objectRows (depth - 1) row
    | _ => objectRows depth row
termination_by row.length
decreasing_by
  · exact Nat.lt_succ_of_le (length_beyond_le 1 row)
  all_goals exact Nat.lt_succ_self _

section

variable {place : Cursor} {row : List Lexeme}

theorem rest_skip_of_cons {lexeme : Lexeme} (h : place.rest = rowText (lexeme :: row)) :
    (place.skip lexeme.text.length).rest = rowText row := by
  rw [Cursor.rest_skip, h, rowText_cons, List.drop_left]

theorem offset_le_skip (place : Cursor) (count : Nat) :
    place.offset ≤ (place.skip count).offset := by
  rw [Cursor.offset_skip]
  omega

/-- An object at the head of a row is found, and the search goes on behind it. -/
theorem objectsAmong_brace {resume : Nat} (hne : ∀ lexeme ∈ row, lexeme.text ≠ [])
    (hplace : place.rest = rowText (.code '{' :: row)) (hresume : resume ≤ place.offset) :
    ∃ next : Cursor, next.rest = rowText (beyond 1 row)
      ∧ ∃ later ≤ next.offset, objectsAmong 0 resume (rowTokens place (.code '{' :: row))
        = rowText (.code '{' :: through 1 row) ::
            objectsAmong 0 later (rowTokens next (beyond 1 row)) := by
  have hwhole : place.rest = rowText (.code '{' :: through 1 row) ++ rowText (beyond 1 row) := by
    rw [hplace, ← rowText_append, List.cons_append, through_append_beyond]
  have hread := length_rowText_code '{' (through 1 row)
  have hbehind := offset_le_skip place (rowText (.code '{' :: through 1 row)).length
  have hclosing : closingAmong 0 (rowTokens place (.code '{' :: row))
      = closingAmong 0 (placed place (.code '{' :: row)) := closingAmong_filter 0 _
  have hcut := upTo_skip hwhole
  refine ⟨place.skip (rowText (.code '{' :: through 1 row)).length,
    by rw [Cursor.rest_skip, hwhole, List.drop_left], ?_⟩
  rw [rowTokens_cons rfl] at hclosing ⊢
  rw [objectsAmong, if_neg (Nat.not_lt.mpr hresume)]
  simp only [if_true, hclosing]
  rcases closing_cases (by decide : isOpener '{' = true) place row with
    ⟨hnone, -, hthrough, hbeyond⟩ | ⟨close, hclose, hat, hstop, hlonger⟩
  · refine ⟨resume, Nat.le_trans hresume hbehind, ?_⟩
    rw [hnone, hbeyond, hthrough, hplace]
    rfl
  · rw [hclose]
    dsimp only
    rw [hstop, ← hread, hcut]
    refine ⟨close.offset + 1, ?_, ?_⟩
    · rw [hat, Cursor.offset_skip, Cursor.offset_skip, hwhole, List.length_append, hread]
      omega
    · rw [← through_append_beyond 1 row, rowTokens_append, objectsAmong_of_before]
      · rw [Cursor.skip_skip, through_append_beyond, hread]
        rfl
      · intro token htoken
        have hinside := hne
        rw [← through_append_beyond 1 row] at hinside
        have hlt := offset_lt_of_mem_rowTokens (List.forall_mem_append.mp hinside).1
          (by rw [through_append_beyond]; exact rest_skip_of_cons hplace) token htoken
        rw [Cursor.offset_skip] at hlt
        rw [hat, Cursor.offset_skip, hwhole, List.length_append, hread]
        simp only [Lexeme.text, List.length_singleton] at hlt
        omega

theorem objectsAmong_eq {depth resume : Nat} (hne : ∀ lexeme ∈ row, lexeme.text ≠ [])
    (hplace : place.rest = rowText row) (hresume : resume ≤ place.offset) :
    objectsAmong depth resume (rowTokens place row) = (objectRows depth row).map rowText := by
  fun_induction objectRows depth row generalizing place resume with
  | case1 => rfl
  | case2 row ih =>
    obtain ⟨-, hrow⟩ := List.forall_mem_cons.mp hne
    obtain ⟨next, hnext, later, hlater, hobjects⟩ := objectsAmong_brace hrow hplace hresume
    rw [hobjects, List.map_cons, ih ?_ hnext hlater]
    intro lexeme hmem
    refine hrow lexeme ?_
    rw [← through_append_beyond 1 row]
    exact List.mem_append_right _ hmem
  | case3 depth row hdepth ih =>
    rw [rowTokens_cons rfl, objectsAmong, if_neg (Nat.not_lt.mpr hresume)]
    simp only [hdepth, if_false]
    exact ih (List.forall_mem_cons.mp hne).2 (rest_skip_of_cons hplace)
      (Nat.le_trans hresume (offset_le_skip _ _))
  | case4 depth row ih | case5 depth row ih | case6 depth row ih =>
    rw [rowTokens_cons rfl, objectsAmong, if_neg (Nat.not_lt.mpr hresume)]
    exact ih (List.forall_mem_cons.mp hne).2 (rest_skip_of_cons hplace)
      (Nat.le_trans hresume (offset_le_skip _ _))
  | case7 depth lexeme row hbrace hlist hclose hend ih =>
    have hmore := ih (List.forall_mem_cons.mp hne).2 (rest_skip_of_cons hplace)
      (Nat.le_trans hresume (offset_le_skip _ _))
    cases hcomment : lexeme.isComment with
    | true =>
      obtain ⟨text, rfl⟩ : ∃ text, lexeme = .comment text := by
        cases lexeme <;> simp_all [Lexeme.isComment]
      exact hmore
    | false =>
      rw [rowTokens_cons hcomment, objectsAmong, if_neg (Nat.not_lt.mpr hresume)]
      -- Any other lexeme is passed over.
      cases lexeme with
      | code c =>
        simp only [Lexeme.code.injEq, imp_false] at hbrace hlist hclose hend
        simpa [hbrace, hlist, hclose, hend] using hmore
      | quoted text | regex text | comment text => exact hmore

end

theorem objects_eq (text : Text) :
    objects text = (objectRows 0 (lexemes none text)).map rowText := by
  rw [objects, tokens_eq_rowTokens]
  exact objectsAmong_eq (Reads.of_text none text).ne_nil (rowText_lexemes none text).symm
    (Nat.zero_le _)

/-! ### Direct text -/

/-- What stands at depth one in a row, up to the bracket that closes the first one. -/
def directOf (depth : Nat) : List Lexeme → Text
  | [] => []
  | .code c :: row =>
    if isOpener c then directOf (depth + 1) row
    else if isCloser c then if depth = 1 then [] else directOf (depth - 1) row
    else if depth = 1 then c :: directOf depth row
    else directOf depth row
  | .comment _ :: row => directOf depth row
  | lexeme :: row => if depth = 1 then lexeme.text ++ directOf depth row else directOf depth row

/-- A lexeme that closes nothing is spelled at depth one, unless it is a bracket or a comment. -/
theorem directOf_cons {depth : Nat} {lexeme : Lexeme} (hdepth : 1 ≤ depth)
    (hopen : closesAt depth lexeme = false) (row : List Lexeme) :
    directOf depth (lexeme :: row)
      = (if !lexeme.isComment && (lexeme.bracket?.isNone && decide ((depth : Int) = 1))
          then lexeme.text else []) ++ directOf (depthAfter depth lexeme).toNat row := by
  have hone : decide ((depth : Int) = 1) = decide (depth = 1) := decide_eq_decide.mpr (by omega)
  rw [hone]
  cases lexeme with
  | comment text => rfl
  | quoted text | regex text =>
    by_cases hdepth : depth = 1
    · simp [directOf, Lexeme.isComment, Lexeme.bracket?, depthAfter, hdepth]
    · simp [directOf, Lexeme.bracket?, depthAfter, hdepth]
  | code c =>
    by_cases hopener : isOpener c = true
    · have hnext : ((depth : Int) + 1).toNat = depth + 1 := by omega
      simp [directOf, Lexeme.bracket?, depthAfter, hopener, hnext]
    by_cases hcloser : isCloser c = true
    · have hne : depth ≠ 1 := by
        rintro rfl
        simp [closesAt, hcloser] at hopen
      simp [directOf, Lexeme.bracket?, depthAfter, hopener, hcloser, hne]
    by_cases hdepth : depth = 1
    · simp [directOf, Lexeme.isComment, Lexeme.bracket?, depthAfter, hopener, hcloser, hdepth,
        Lexeme.text]
    · simp [directOf, Lexeme.bracket?, depthAfter, hopener, hcloser, hdepth]

theorem directTextAmong_eq (depth : Nat) (place : Cursor) (row : List Lexeme) :
    directTextAmong depth (rowTokens place row) = directOf depth row := by
  induction row generalizing depth place with
  | nil => rfl
  | cons lexeme row ih =>
    cases lexeme with
    | comment text => rw [rowTokens_comment, directOf, ih]
    | code c =>
      rw [rowTokens_cons rfl]
      simp only [directTextAmong, directOf, ih]
    | quoted text | regex text =>
      rw [rowTokens_cons rfl]
      simp only [directTextAmong, directOf, ih]

/-- The direct text of a block whose first brace is known. -/
theorem directText_eq {run : Text} {row : List Lexeme} (hrun : '{' ∉ run)
    (hreads : lexemes none (rowText (.code '{' :: row)) = .code '{' :: row) :
    directText (run ++ rowText (.code '{' :: row)) = directOf 1 row := by
  have hrest : ((Cursor.ofText (run ++ rowText (.code '{' :: row))).skip run.length).rest
      = rowText (.code '{' :: row) := by
    rw [Cursor.rest_skip]
    exact List.drop_left
  have hstart : (Cursor.ofText (run ++ rowText (.code '{' :: row))).seek '{'
      = (Cursor.ofText (run ++ rowText (.code '{' :: row))).skip run.length :=
    Cursor.seek_ofText hrun (by simp [Lexeme.text])
  rw [directText, if_pos (by simp [Lexeme.text]), hstart, tokens_eq_rowTokens, hrest,
    hreads, directTextAmong_eq, directOf, if_pos (by decide)]

end GroqSnippets
