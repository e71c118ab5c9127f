/-
Windows show what the whole text shows.

The reader cuts windows out of a text and scans them again from their first character, without
knowing what stood before.  Here is why that does no harm.  A window begins at or behind an opening
bracket, and after a bracket, as at the start of a scan, a slash opens a regex, so the memory that
the new scan lacks would not have changed anything.  A window ends where a closing bracket stands or
where the text ends, and that is the end of a lexeme, so nothing is cut in two.  What a scan of the
window sees is then the stretch of the row of the whole text that the window spells.

Brackets inside a window are closed inside it.  Between a bracket and its partner the depth stays
positive, so the depth at which an inner bracket stands is reached again before the outer one
closes.
-/
import GroqSnippets.Proofs.Source.Nesting

namespace GroqSnippets

namespace Text

def slice (text : Text) (start stop : Nat) : Text :=
  (text.drop start).take (stop - start)

/-- What a scan of a text from an offset sees: the tokens, each with the offset where it starts. -/
def seen (text : Text) (start : Nat) : List (Nat × Lexeme) :=
  (Cursor.ofOffset text start).tokens.map fun token => (token.place.offset, token.lexeme)

end Text

/-- What is seen, with all offsets moved on. -/
def movedOn (shift : Nat) (seen : List (Nat × Lexeme)) : List (Nat × Lexeme) :=
  seen.map fun (offset, lexeme) => (shift + offset, lexeme)

/-- The part of what is seen that starts from one offset on and before another one. -/
def within (start stop : Nat) (seen : List (Nat × Lexeme)) : List (Nat × Lexeme) :=
  seen.filter fun (offset, _) => decide (start ≤ offset) && decide (offset < stop)

/-! ### Rows with offsets -/

/-- A row with the offsets of its lexemes, comments included. -/
def located (offset : Nat) : List Lexeme → List (Nat × Lexeme)
  | [] => []
  | lexeme :: row => (offset, lexeme) :: located (offset + lexeme.text.length) row

theorem located_append (offset : Nat) (a b : List Lexeme) :
    located offset (a ++ b) = located offset a ++ located (offset + (rowText a).length) b := by
  induction a generalizing offset with
  | nil => simp [located]
  | cons lexeme a ih => simp [located, ih, Nat.add_assoc]

theorem movedOn_located (shift offset : Nat) (row : List Lexeme) :
    movedOn shift (located offset row) = located (shift + offset) row := by
  induction row generalizing offset with
  | nil => rfl
  | cons lexeme row ih =>
    simp only [located, movedOn, List.map_cons, Nat.add_assoc] at ih ⊢
    rw [ih]

/-- A lexeme of a row stands behind the lexemes before it. -/
theorem exists_split_of_mem_located {offset position : Nat} {lexeme : Lexeme} {row : List Lexeme}
    (h : (position, lexeme) ∈ located offset row) :
    ∃ before after, row = before ++ lexeme :: after
      ∧ position = offset + (rowText before).length := by
  induction row generalizing offset with
  | nil => cases h
  | cons first row ih =>
    rcases List.mem_cons.mp h with heq | h
    · obtain ⟨rfl, rfl⟩ := Prod.mk.inj heq
      exact ⟨[], row, rfl, rfl⟩
    · obtain ⟨before, after, rfl, rfl⟩ := ih h
      exact ⟨first :: before, after, rfl, by simp [Nat.add_assoc]⟩

theorem map_placed (place : Cursor) (row : List Lexeme) (more : Text)
    (h : place.rest = rowText row ++ more) :
    (placed place row).map (fun token => (token.place.offset, token.lexeme))
      = located place.offset row := by
  induction row generalizing place with
  | nil => rfl
  | cons lexeme row ih =>
    have hoffset : (place.skip lexeme.text.length).offset = place.offset + lexeme.text.length := by
      rw [Cursor.offset_skip, h]
      simp
    simp only [placed, located, List.map_cons]
    rw [ih (place.skip lexeme.text.length) (by simp [Cursor.rest_skip, h]), hoffset]

/-- What a scan sees is the row of the text behind the offset, without comments. -/
theorem seen_eq {text : Text} {start : Nat} (hstart : start ≤ text.length) :
    text.seen start
      = (located start (lexemes none (text.drop start))).filter fun (_, lexeme) =>
        !lexeme.isComment := by
  have hoffset : (Cursor.ofOffset text start).offset = start := by
    rw [Cursor.offset_ofOffset, Nat.min_eq_left hstart]
  have hplaced := map_placed (Cursor.ofOffset text start) (lexemes none (text.drop start)) []
    (by rw [rowText_lexemes, Cursor.rest_ofOffset, List.append_nil])
  rw [hoffset] at hplaced
  unfold Text.seen Cursor.tokens
  rw [lexemesFrom_eq, Cursor.rest_ofOffset, ← hplaced, List.filter_map]
  rfl

theorem start_le_of_mem_seen {text : Text} {start : Nat} {item : Nat × Lexeme}
    (h : item ∈ text.seen start) : start ≤ text.length := by
  by_contra hlt
  have hrest : (Cursor.ofOffset text start).rest = [] := by
    rw [Cursor.rest_ofOffset, List.drop_eq_nil_of_le (by omega)]
  simp [Text.seen, Cursor.tokens, lexemesFrom_of_nil hrest] at h

/-- What is seen stands behind some lexemes of the row and before the others. -/
theorem exists_split_of_mem_seen {text : Text} {start position : Nat} {lexeme : Lexeme}
    (h : (position, lexeme) ∈ text.seen start) :
    ∃ before after, lexemes none (text.drop start) = before ++ lexeme :: after
      ∧ position = start + (rowText before).length := by
  rw [seen_eq (start_le_of_mem_seen h)] at h
  exact exists_split_of_mem_located (List.mem_filter.mp h).1

/-! ### Stretches of a row -/

theorem offset_of_mem_located {offset position : Nat} {lexeme : Lexeme} {row : List Lexeme}
    (hne : ∀ lexeme ∈ row, lexeme.text ≠ []) (h : (position, lexeme) ∈ located offset row) :
    offset ≤ position ∧ position < offset + (rowText row).length := by
  obtain ⟨before, after, rfl, rfl⟩ := exists_split_of_mem_located h
  have := List.length_pos_iff.mpr (hne lexeme (by simp))
  simp only [rowText_append, rowText_cons, List.length_append]
  omega

theorem pairwise_located {offset : Nat} {row : List Lexeme}
    (hne : ∀ lexeme ∈ row, lexeme.text ≠ []) :
    (located offset row).Pairwise fun earlier later => earlier.1 < later.1 := by
  induction row generalizing offset with
  | nil => exact .nil
  | cons lexeme row ih =>
    obtain ⟨hlexeme, hrow⟩ := List.forall_mem_cons.mp hne
    have hpos := List.length_pos_iff.mpr hlexeme
    refine .cons ?_ (ih hrow)
    intro item hitem
    have hbehind := (offset_of_mem_located hrow hitem).1
    show offset < item.1
    omega

theorem pairwise_seen (text : Text) (start : Nat) :
    (text.seen start).Pairwise fun earlier later => earlier.1 < later.1 := by
  by_cases hstart : start ≤ text.length
  · rw [seen_eq hstart]
    exact (pairwise_located fun _ => text_ne_nil_of_mem_lexemes).filter _
  · rw [List.eq_nil_iff_forall_not_mem.mpr fun item h => hstart (start_le_of_mem_seen h)]
    exact .nil

theorem pairwise_within (text : Text) (start lo hi : Nat) :
    (within lo hi (text.seen start)).Pairwise fun earlier later => earlier.1 < later.1 :=
  (pairwise_seen text start).filter _

/-- The part of a row between two offsets is the stretch that spells the text between them. -/
theorem within_located {offset : Nat} {a b d : List Lexeme}
    (hne : ∀ lexeme ∈ a ++ b ++ d, lexeme.text ≠ []) :
    within (offset + (rowText a).length) (offset + (rowText a).length + (rowText b).length)
        (located offset (a ++ b ++ d))
      = located (offset + (rowText a).length) b := by
  obtain ⟨hfront, hd⟩ := List.forall_mem_append.mp hne
  obtain ⟨ha, hb⟩ := List.forall_mem_append.mp hfront
  have hbefore : ∀ item ∈ located offset a, item.1 < offset + (rowText a).length := by
    intro item hitem
    exact (offset_of_mem_located ha hitem).2
  have hinside : ∀ item ∈ located (offset + (rowText a).length) b,
      offset + (rowText a).length ≤ item.1
      ∧ item.1 < offset + (rowText a).length + (rowText b).length := by
    intro item hitem
    exact offset_of_mem_located hb hitem
  have hafter : ∀ item ∈ located (offset + (rowText (a ++ b)).length) d,
      offset + (rowText a).length + (rowText b).length ≤ item.1 := by
    intro item hitem
    have := (offset_of_mem_located hd hitem).1
    simpa [Nat.add_assoc] using this
  rw [located_append, located_append, within, List.filter_append, List.filter_append]
  rw [List.filter_eq_nil_iff.mpr, List.filter_eq_self.mpr, List.filter_eq_nil_iff.mpr]
  · simp
  · intro item hitem
    have := hafter item hitem
    simp
    omega
  · intro item hitem
    have := hinside item hitem
    simp
    omega
  · intro item hitem
    have := hbefore item hitem
    simp
    omega

/-- The part of a row from an offset on. -/
theorem filter_located {offset : Nat} {a b : List Lexeme}
    (hne : ∀ lexeme ∈ a ++ b, lexeme.text ≠ []) :
    (located offset (a ++ b)).filter
        (fun (position, _) => decide (offset + (rowText a).length ≤ position))
      = located (offset + (rowText a).length) b := by
  obtain ⟨ha, hb⟩ := List.forall_mem_append.mp hne
  have hbefore : ∀ item ∈ located offset a, item.1 < offset + (rowText a).length := by
    intro item hitem
    exact (offset_of_mem_located ha hitem).2
  have hfrom : ∀ item ∈ located (offset + (rowText a).length) b,
      offset + (rowText a).length ≤ item.1 := by
    intro item hitem
    exact (offset_of_mem_located hb hitem).1
  rw [located_append, List.filter_append, List.filter_eq_nil_iff.mpr,
    List.filter_eq_self.mpr, List.nil_append]
  · intro item hitem
    simpa using hfrom item hitem
  · intro item hitem
    simpa using hbefore item hitem

/-! ### Windows of a row -/

theorem isSettling_of_isOpener {c : Char} (h : isOpener c = true) : isSettling c = true := by
  simp only [isOpener, Bool.or_eq_true, beq_iff_eq] at h
  rcases h with (rfl | rfl) | rfl <;> decide

theorem opensRegex_of_isOpener {c : Char} (h : isOpener c = true) : opensRegex (some c) = true := by
  simp only [isOpener, Bool.or_eq_true, beq_iff_eq] at h
  rcases h with (rfl | rfl) | rfl <;> decide

theorem lastAfter_of_isSettling {c : Char} (h : isSettling c = true) (last : Option Char) :
    Lexeme.lastAfter last (.code c) = some c := by
  simp only [isSettling, Bool.and_eq_true, Bool.not_eq_true'] at h
  simp [Lexeme.lastAfter, h.2]

theorem drop_of_split {last : Option Char} {text : Text} {start : Nat} {before more : List Lexeme}
    (h : lexemes last (text.drop start) = before ++ more) :
    text.drop (start + (rowText before).length) = rowText more := by
  have htext : text.drop start = rowText before ++ rowText more := by
    rw [← rowText_append, ← h, rowText_lexemes]
  rw [← List.drop_drop, htext, List.drop_left]

/-- A scan that starts at a settling character sees the row from there on. -/
theorem lexemes_drop_of_isSettling {last : Option Char} {text : Text} {start : Nat} {c : Char}
    {before after : List Lexeme} (h : lexemes last (text.drop start) = before ++ .code c :: after)
    (hc : isSettling c = true) :
    lexemes none (text.drop (start + (rowText before).length)) = .code c :: after := by
  have hrow : lexemes last (rowText (before ++ .code c :: after)) = before ++ .code c :: after := by
    rw [← h, rowText_lexemes]
  rw [drop_of_split h, lexemes_rowText_append hrow, rowText_lexemes]
  exact lexemes_of_isSettling hc _ _ (rowText after)

/-- A scan of a stretch that begins with a settling character sees the stretch. -/
theorem lexemes_rowText_of_isSettling {text : Text} {start : Nat} {c : Char}
    {before inner more : List Lexeme}
    (h : lexemes none (text.drop start) = before ++ (.code c :: inner) ++ more)
    (hc : isSettling c = true) :
    lexemes none (rowText (.code c :: inner)) = .code c :: inner := by
  have hsplit : lexemes none (text.drop start) = before ++ .code c :: (inner ++ more) := by
    simpa using h
  have hrow := lexemes_drop_of_isSettling hsplit hc
  have hread : lexemes none (rowText (.code c :: inner ++ more)) = .code c :: inner ++ more := by
    rw [List.cons_append, ← hrow, rowText_lexemes]
  exact lexemes_rowText_left hread

/-- A scan of a stretch behind an opening bracket sees the stretch. -/
theorem lexemes_rowText_of_isOpener {text : Text} {start : Nat} {c : Char}
    {before inner more : List Lexeme}
    (h : lexemes none (text.drop start) = before ++ (.code c :: inner) ++ more)
    (hc : isOpener c = true) :
    lexemes none (rowText inner) = inner := by
  have hblock := lexemes_rowText_of_isSettling h (isSettling_of_isOpener hc)
  have hsplit : lexemes none (rowText ([.code c] ++ inner)) = [.code c] ++ inner := hblock
  have hinner := lexemes_rowText_append hsplit
  rw [lastAfterRow_cons, lastAfter_of_isSettling (isSettling_of_isOpener hc),
    lastAfterRow_nil] at hinner
  rw [lexemes_congr (b := some c) (by rw [opensRegex_of_isOpener hc]; rfl), ← hinner]

theorem slice_of_split {last : Option Char} {text : Text} {start : Nat}
    {before window more : List Lexeme}
    (h : lexemes last (text.drop start) = before ++ window ++ more) :
    text.slice (start + (rowText before).length)
      (start + (rowText before).length + (rowText window).length)
      = rowText window := by
  have hsplit : lexemes last (text.drop start) = before ++ (window ++ more) := by simpa using h
  rw [Text.slice, drop_of_split hsplit, Nat.add_sub_cancel_left, rowText_append, List.take_left]

/-- A stretch of the row is what is seen between its offsets, without comments. -/
theorem within_seen {text : Text} {start : Nat} {a b d : List Lexeme} (hstart : start ≤ text.length)
    (h : lexemes none (text.drop start) = a ++ b ++ d) :
    within (start + (rowText a).length) (start + (rowText a).length + (rowText b).length)
        (text.seen start)
      = (located (start + (rowText a).length) b).filter fun (_, lexeme) => !lexeme.isComment := by
  have hne : ∀ lexeme ∈ a ++ b ++ d, lexeme.text ≠ [] := by
    intro lexeme hmem
    rw [← h] at hmem
    exact text_ne_nil_of_mem_lexemes hmem
  rw [seen_eq hstart, h, within, List.filter_comm]
  exact congrArg _ (within_located hne)

/-- What a scan of a window sees is what the scan of the whole text sees in its place, if the window
spells a stretch of the row that reads as itself. -/
theorem seen_slice {text : Text} {start lo hi : Nat} {before window more : List Lexeme}
    (hstart : start ≤ text.length) (h : lexemes none (text.drop start) = before ++ window ++ more)
    (hwindow : lexemes none (rowText window) = window) (hlo : lo = start + (rowText before).length)
    (hhi : hi = lo + (rowText window).length) :
    movedOn lo ((text.slice lo hi).seen 0) = within lo hi (text.seen start) := by
  subst hhi hlo
  rw [slice_of_split h, seen_eq (Nat.zero_le _), List.drop_zero, hwindow]
  calc movedOn _ ((located 0 window).filter fun (_, lexeme) => !lexeme.isComment)
      = (movedOn _ (located 0 window)).filter fun (_, lexeme) => !lexeme.isComment := by
        rw [movedOn, movedOn, List.filter_map]
        rfl
    _ = (located _ window).filter fun (_, lexeme) => !lexeme.isComment := by
        rw [movedOn_located, Nat.add_zero]
    _ = within _ _ (text.seen start) := (within_seen hstart h).symm

theorem position_lt_of_mem_seen {text : Text} {start : Nat} {item : Nat × Lexeme}
    (h : item ∈ text.seen start) : item.1 < text.length := by
  obtain ⟨before, after, hrow, hposition⟩ := exists_split_of_mem_seen h
  have hmem : item.2 ∈ lexemes none (text.drop start) := by simp [hrow]
  have hne := List.length_pos_iff.mpr (text_ne_nil_of_mem_lexemes hmem)
  have hlength := congrArg List.length (drop_of_split hrow)
  simp only [List.length_drop, rowText_cons, List.length_append] at hlength
  omega

/-! ### What is inside a bracket

Behind an opening bracket a slash opens a regex literal, as it does where a text begins.  This is
why a bracket may be cut out together with what it holds, or what it holds alone.
-/

/-- Around a bracket that is seen, the row falls into what comes before it, the bracket with all
that it holds, and what begins with the closing bracket, if there is one. -/
theorem exists_window {text : Text} {start o : Nat} {c : Char} (h : (o, .code c) ∈ text.seen start)
    (hc : isOpener c = true) :
    ∃ before inner ending, lexemes none (text.drop start) = before ++ (.code c :: inner) ++ ending
      ∧ o = start + (rowText before).length ∧ closingOffset text o = o + 1 + (rowText inner).length
      ∧ StaysOpen 1 inner
      ∧ ((ending = [] ∧ closingOffset text o = text.length)
        ∨ ∃ closer more, ending = .code closer :: more ∧ depthThrough 1 inner = 1
            ∧ isCloser closer = true) := by
  obtain ⟨before, after, hrow, rfl⟩ := exists_split_of_mem_seen h
  have hdrop := lexemes_drop_of_isSettling hrow (isSettling_of_isOpener hc)
  have hopen : closesAt 0 (.code c) = false := closesAt_of_isOpener hc 0
  have hdepth : depthAfter 0 (.code c) = 1 := depthAfter_of_isOpener hc 0
  rcases staysOpen_or_split 1 after with hstays | ⟨inner, lexeme, more, rfl, hstays, hclose⟩
  · have hall : StaysOpen 0 (.code c :: after) := ⟨hopen, hdepth ▸ hstays⟩
    rw [← hdrop] at hall
    have hend := closingOffset_of_staysOpen hall
    refine ⟨before, after, [], by simpa using hrow, rfl, ?_, hstays, Or.inl ⟨rfl, hend⟩⟩
    have hlength := congrArg List.length (drop_of_split hrow)
    simp only [List.length_drop, rowText_cons, Lexeme.text, List.length_append, List.length_cons,
      List.length_nil] at hlength
    omega
  · obtain ⟨closer, rfl, hcloser, hone⟩ := closesAt_iff.mp hclose
    refine ⟨before, inner, .code closer :: more, by simpa using hrow, rfl, ?_, hstays,
      Or.inr ⟨closer, more, rfl, hone, hcloser⟩⟩
    have hall : StaysOpen 0 (.code c :: inner) := ⟨hopen, hdepth ▸ hstays⟩
    have hclosed : closesAt (depthThrough 0 (.code c :: inner)) (.code closer) = true := by
      simpa [hdepth] using hclose
    rw [closingOffset_of_split hdrop hall hclosed]
    simp [Lexeme.text]
    omega

/-- A scan that starts at an opening bracket sees what is seen from there on. -/
theorem seen_from {text : Text} {start o : Nat} {c : Char} (h : (o, .code c) ∈ text.seen start)
    (hc : isOpener c = true) :
    text.seen o = (text.seen start).filter fun (position, _) => decide (o ≤ position) := by
  have hstart := start_le_of_mem_seen h
  have ho := Nat.le_of_lt (position_lt_of_mem_seen h)
  obtain ⟨before, after, hrow, rfl⟩ := exists_split_of_mem_seen h
  have hne : ∀ lexeme ∈ before ++ .code c :: after, lexeme.text ≠ [] := by
    intro lexeme hmem
    rw [← hrow] at hmem
    exact text_ne_nil_of_mem_lexemes hmem
  rw [seen_eq ho, seen_eq hstart, lexemes_drop_of_isSettling hrow (isSettling_of_isOpener hc), hrow,
    List.filter_comm, filter_located hne]

/-- So does a scan that starts behind a character after which a slash opens a regex. -/
theorem seen_behind {text : Text} {start o : Nat} {c : Char} (h : (o, .code c) ∈ text.seen start)
    (hc : isSettling c = true) (hregex : opensRegex (some c) = true) :
    text.seen (o + 1)
      = (text.seen start).filter fun (position, _) => decide (o + 1 ≤ position) := by
  have hstart := start_le_of_mem_seen h
  have ho : o + 1 ≤ text.length := position_lt_of_mem_seen h
  obtain ⟨before, after, hrow, rfl⟩ := exists_split_of_mem_seen h
  have hsplit : lexemes none (text.drop start) = (before ++ [.code c]) ++ after := by
    simpa using hrow
  have hne : ∀ lexeme ∈ (before ++ [.code c]) ++ after, lexeme.text ≠ [] := by
    intro lexeme hmem
    rw [← hsplit] at hmem
    exact text_ne_nil_of_mem_lexemes hmem
  have hwhole : lexemes none (rowText ((before ++ [.code c]) ++ after))
      = (before ++ [.code c]) ++ after := by
    rw [← hsplit, rowText_lexemes]
  have hmemory : lastAfterRow none (before ++ [.code c]) = some c := by
    rw [lastAfterRow, List.foldl_append]
    exact lastAfter_of_isSettling hc _
  have hread := lexemes_rowText_append hwhole
  have hfresh : lexemes none (rowText after) = after := by
    rw [lexemes_congr (b := some c) (by rw [hregex]; rfl), ← hmemory, ← hread]
  have hlength : start + (rowText before).length + 1
      = start + (rowText (before ++ [.code c])).length := by
    simp [Lexeme.text, Nat.add_assoc]
  rw [hlength] at ho ⊢
  rw [seen_eq ho, seen_eq hstart, drop_of_split hsplit, hfresh, hsplit, List.filter_comm,
    filter_located hne]

theorem seen_closer {text : Text} {start o : Nat} {c : Char} (h : (o, .code c) ∈ text.seen start)
    (hc : isOpener c = true) (hclosed : closingOffset text o < text.length) :
    ∃ closer, (closingOffset text o, .code closer) ∈ text.seen start := by
  obtain ⟨before, inner, ending, hrow, ho, hclosing, -, hending⟩ := exists_window h hc
  rcases hending with ⟨-, hend⟩ | ⟨closer, more, rfl, -, -⟩
  · omega
  · refine ⟨closer, ?_⟩
    have hoffset : closingOffset text o
        = start + (rowText (before ++ (.code c :: inner))).length := by
      simp only [rowText_append, length_rowText_code, List.length_append]
      omega
    rw [seen_eq (start_le_of_mem_seen h), hrow, located_append, hoffset]
    exact List.mem_filter.mpr ⟨List.mem_append_right _ List.mem_cons_self, rfl⟩

/-- What is seen as code is the character that stands there. -/
theorem getElem?_of_mem_seen {text : Text} {start o : Nat} {c : Char}
    (h : (o, .code c) ∈ text.seen start) : text[o]? = some c := by
  obtain ⟨before, after, hrow, rfl⟩ := exists_split_of_mem_seen h
  have hdrop := drop_of_split hrow
  rw [← List.head?_drop, hdrop]
  rfl

theorem getLast?_slice {text : Text} {lo hi : Nat} (hle : lo ≤ hi) (hlt : hi < text.length) :
    (text.slice lo (hi + 1)).getLast? = text[hi]? := by
  have hlength : lo + (hi + 1 - lo - 1) = hi := by omega
  rw [Text.slice, List.getLast?_take, if_neg (by omega), List.getElem?_drop, hlength,
    List.getElem?_eq_getElem hlt, Option.some_or]

/-- The section behind an opening bracket: a scan of it sees what the whole text shows there. -/
theorem seen_section {text : Text} {start o : Nat} {c : Char} (h : (o, .code c) ∈ text.seen start)
    (hc : isOpener c = true) :
    movedOn (o + 1) ((text.slice (o + 1) (closingOffset text o)).seen 0)
      = within (o + 1) (closingOffset text o) (text.seen start) := by
  obtain ⟨before, inner, ending, hrow, ho, hclosing, -, -⟩ := exists_window h hc
  have hsplit : lexemes none (text.drop start) = before ++ [.code c] ++ inner ++ ending := by
    simpa using hrow
  refine seen_slice (start_le_of_mem_seen h) hsplit
    (lexemes_rowText_of_isOpener hrow hc) ?_ hclosing
  simp [ho, Lexeme.text, Nat.add_assoc]

/-- A bracket inside a section is closed there where it is closed in the whole text. -/
theorem closingOffset_section {text : Text} {start o p : Nat} {c d : Char}
    (h : (o, .code c) ∈ text.seen start) (hc : isOpener c = true)
    (hp : (p, .code d) ∈ text.seen start) (hd : isOpener d = true) (hlo : o < p)
    (hhi : p < closingOffset text o) :
    o + 1 + closingOffset (text.slice (o + 1) (closingOffset text o)) (p - (o + 1))
      = closingOffset text p := by
  obtain ⟨before, inner, ending, hrow, ho, hclosing, hopen, hending⟩ := exists_window h hc
  have hslice : text.slice (o + 1) (closingOffset text o) = rowText inner := by
    have hsplit : lexemes none (text.drop start) = before ++ [.code c] ++ inner ++ ending := by
      simpa using hrow
    have hwindow := slice_of_split hsplit
    rw [rowText_append, List.length_append, ← Nat.add_assoc, ← ho] at hwindow
    rwa [hclosing]
  have hread : lexemes none (rowText inner) = inner := lexemes_rowText_of_isOpener hrow hc
  have hmem : (p, .code d) ∈ within (o + 1) (closingOffset text o) (text.seen start) :=
    List.mem_filter.mpr ⟨hp, by simpa using ⟨hlo, hhi⟩⟩
  rw [← seen_section h hc, hslice] at hmem
  obtain ⟨⟨q, lexeme⟩, hq, heq⟩ := List.mem_map.mp hmem
  obtain ⟨rfl, rfl⟩ := Prod.mk.inj heq
  -- The inner bracket splits the section, and the section splits the text.
  obtain ⟨front, held, tail, hsplit, hq', hclosed, hheld, htail⟩ := exists_window hq hd
  rw [List.drop_zero, hread] at hsplit
  rw [Nat.zero_add] at hq'
  have hdrop : lexemes none (text.drop (o + 1 + q)) = .code d :: (held ++ tail ++ ending) := by
    have hfront : lexemes none (text.drop start)
        = (before ++ .code c :: front) ++ .code d :: (held ++ tail ++ ending) := by
      simpa [hsplit] using hrow
    have hthere := lexemes_drop_of_isSettling hfront (isSettling_of_isOpener hd)
    simpa [ho, hq', Lexeme.text, Nat.add_assoc, Nat.add_left_comm, Nat.add_comm] using hthere
  have hall : StaysOpen 0 (.code d :: held) :=
    ⟨closesAt_of_isOpener hd 0, (depthAfter_of_isOpener hd 0).symm ▸ hheld⟩
  rw [hslice, Nat.add_sub_cancel_left, hclosed]
  rcases htail with ⟨rfl, hwhole⟩ | ⟨closer, more, rfl, hone, hcloser⟩
  · rcases hending with ⟨rfl, hend⟩ | ⟨closer, more, rfl, hone, -⟩
    · -- Neither is closed, and both reach to the end of the text.
      have hrest : StaysOpen 0 (lexemes none (text.drop (o + 1 + q))) := by simpa [hdrop] using hall
      rw [closingOffset_of_staysOpen hrest]
      omega
    · -- The section ends at depth one, and the inner bracket opened above that.
      have hdepth := one_le_depthThrough hheld (Int.le_refl 1)
      have hfront : 1 ≤ depthThrough 1 front := by
        rw [hsplit] at hopen
        simp at hopen
        exact one_le_depthThrough hopen.1 (Int.le_refl 1)
      have hshift := depthThrough_add 1 (depthThrough 1 front) held
      simp [hsplit, depthAfter_of_isOpener hd] at hone
      rw [Int.add_comm] at hone
      omega
  · have hheld : lexemes none (text.drop (o + 1 + q))
        = .code d :: held ++ .code closer :: (more ++ ending) := by simpa using hdrop
    have hclose : closesAt (depthThrough 0 (.code d :: held)) (.code closer) = true := by
      simp [depthAfter_of_isOpener hd, hone, closesAt, hcloser]
    rw [closingOffset_of_split hheld hall hclose]
    simp [Lexeme.text]
    omega

/-! ### Blocks -/

/-- Beyond the end of the text there is nothing more to cut out or to see. -/
theorem slice_beyond (text : Text) (start extra : Nat) :
    text.slice start (text.length + extra) = text.slice start text.length := by
  have hlength : (text.drop start).length = text.length - start := List.length_drop
  rw [Text.slice, Text.slice, List.take_of_length_le (by omega), List.take_of_length_le (by omega)]

theorem within_beyond {text : Text} {start : Nat} (lo extra : Nat) :
    within lo (text.length + extra) (text.seen start)
      = within lo text.length (text.seen start) := by
  refine List.filter_congr ?_
  rintro ⟨offset, lexeme⟩ hitem
  have := position_lt_of_mem_seen hitem
  have hboth : decide (offset < text.length + extra) = decide (offset < text.length) := by
    rw [decide_eq_decide]
    omega
  show (decide (lo ≤ offset) && decide (offset < text.length + extra)) = _
  rw [hboth]

/-- Of two lexemes of a row, one that stands no later than the other is the other or comes before
it. -/
theorem exists_middle_of_le {a b : Lexeme} {before after front rest : List Lexeme}
    (hb : b.text ≠ []) (h : before ++ b :: after = front ++ a :: rest)
    (hle : (rowText front).length ≤ (rowText before).length) :
    ∃ middle, before ++ [b] = front ++ a :: middle := by
  have hpos := List.length_pos_iff.mpr hb
  rcases List.append_eq_append_iff.mp h with ⟨extra, rfl, hsplit⟩ | ⟨extra, rfl, hsplit⟩
  · cases extra with
    | nil => exact ⟨[], by simp_all⟩
    | cons first extra =>
      obtain ⟨rfl, -⟩ := List.cons.inj hsplit
      simp only [rowText_append, rowText_cons, List.length_append] at hle
      omega
  · cases extra with
    | nil => exact ⟨[], by simp_all⟩
    | cons first extra =>
      obtain ⟨rfl, -⟩ := List.cons.inj hsplit
      exact ⟨extra ++ [b], by simp⟩

/-- The block from a settling character through the partner of a later bracket: a scan of it sees
what the whole text shows there. -/
theorem seen_block {text : Text} {start m o : Nat} {c d : Char}
    (hm : (m, .code d) ∈ text.seen start) (hd : isSettling d = true)
    (h : (o, .code c) ∈ text.seen start) (hc : isOpener c = true) (hle : m ≤ o) :
    movedOn m ((text.slice m (closingOffset text o + 1)).seen 0)
      = within m (closingOffset text o + 1) (text.seen start) := by
  have hstart := start_le_of_mem_seen h
  obtain ⟨before, inner, ending, hrow, ho, hclosing, -, hending⟩ := exists_window h hc
  obtain ⟨front, rest, hfront, hm'⟩ := exists_split_of_mem_seen hm
  have hboth : before ++ .code c :: (inner ++ ending) = front ++ .code d :: rest := by
    rw [← hfront, hrow]
    simp
  have hne : Lexeme.text (.code c) ≠ [] := List.cons_ne_nil c []
  obtain ⟨middle, hmiddle⟩ := exists_middle_of_le hne hboth (by omega)
  have hbefore : (rowText front).length + (rowText (.code d :: middle)).length
      = (rowText before).length + 1 := by
    have := congrArg (fun row => (rowText row).length) hmiddle
    simpa [Lexeme.text] using this.symm
  have hsplit : lexemes none (text.drop start)
      = front ++ (.code d :: (middle ++ inner)) ++ ending := by
    rw [hrow, ← List.singleton_append, ← List.append_assoc, hmiddle]
    simp
  rcases hending with ⟨rfl, hend⟩ | ⟨closer, more, rfl, -, -⟩
  · rw [hend, slice_beyond, within_beyond]
    refine seen_slice hstart hsplit (lexemes_rowText_of_isSettling hsplit hd) hm' ?_
    simp only [rowText_cons, rowText_append, List.length_append] at hbefore ⊢
    omega
  · have hblock : lexemes none (text.drop start)
        = front ++ (.code d :: (middle ++ inner ++ [.code closer])) ++ more := by
      rw [hsplit]
      simp
    refine seen_slice hstart hblock (lexemes_rowText_of_isSettling hblock hd) hm' ?_
    simp [Lexeme.text] at hbefore ⊢
    omega

end GroqSnippets
