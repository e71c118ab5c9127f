/-
Blocks do not depend on what follows them.

The blocks of a text are found from left to right: the next place where a declaration begins in
code, the bracket that closes it, and on from there.  Neither search looks behind its answer for
longer than a lexeme lasts, and a lexeme does not change when text behind it is cut off.  So a text
that is cut off where one of its blocks ends has the same blocks up to there, and no others.

`blockSpans` says where the blocks stand; their texts are the slices of the text between the
offsets.
-/
import GroqSnippets.Proofs.Source.Shape
import GroqSnippets.Proofs.Source.Window

namespace GroqSnippets

/-! ### The search in a row -/

namespace Pattern

theorem firstInCode?_eq_placed (pattern : Pattern) (place : Cursor) :
    pattern.firstInCode? place
      = (placed place (lexemes none place.rest)).findSome? pattern.matchToken? := by
  rw [firstInCode?_eq, Cursor.tokens, lexemesFrom_eq]
  induction placed place (lexemes none place.rest) with
  | nil => rfl
  | cons token tokens ih =>
    rw [List.filter_cons]
    cases hcomment : token.lexeme.isComment with
    | true => simpa [matchToken?_of_isComment hcomment] using ih
    | false => simp only [Bool.not_false, if_true, List.findSome?_cons, ih]

/-- Where the search ends: behind lexemes none of which begins an occurrence, at a code character
that does. -/
theorem firstInCode?_eq_some_iff {pattern : Pattern} {place : Cursor} {found : Match} :
    pattern.firstInCode? place = some found
      ↔ ∃ before c after, lexemes none place.rest = before ++ .code c :: after
          ∧ pattern.match? (place.skip (rowText before).length) = some found
          ∧ ∀ token ∈ placed place before, pattern.matchToken? token = none := by
  rw [firstInCode?_eq_placed, List.findSome?_eq_some_iff]
  constructor
  · rintro ⟨front, token, back, hrow, hfound, hnone⟩
    obtain ⟨before, after, hsplit, rfl, hplace⟩ := exists_split_of_placed_eq_append hrow
    unfold matchToken? at hfound
    split at hfound
    · rename_i c hc
      exact ⟨before, c, after, hc ▸ hsplit, hplace ▸ hfound, hnone⟩
    · cases hfound
  · rintro ⟨before, c, after, hrow, hfound, hnone⟩
    let here := place.skip (rowText before).length
    exact ⟨placed place before, ⟨here, .code c⟩, placed (here.skip 1) after,
      by rw [hrow, placed_append, placed]; rfl, hfound, hnone⟩

end Pattern

/-! ### Places of a text -/

/-- Where the search from an offset ends, in terms of the text. -/
theorem Pattern.exists_split_of_firstInCode? {pattern : Pattern} {text : Text}
    {n : Nat} {found : Match} (h : pattern.firstInCode? (Cursor.ofOffset text n) = some found) :
    ∃ before c after, lexemes none (text.drop n) = before ++ .code c :: after
      ∧ found.place = Cursor.ofOffset text found.place.offset
      ∧ found.place.offset = n + (rowText before).length ∧ found.place.offset < text.length
      ∧ pattern.match? found.place = some found
      ∧ ∀ token ∈ placed (Cursor.ofOffset text n) before, pattern.matchToken? token = none := by
  obtain ⟨before, c, after, hrow, hfound, hnone⟩ := firstInCode?_eq_some_iff.mp h
  rw [Cursor.rest_ofOffset] at hrow
  have hlength := congrArg List.length (drop_of_split hrow)
  simp only [List.length_drop, rowText_cons, Lexeme.text, List.length_append, List.length_cons,
    List.length_nil] at hlength
  have hplace : found.place = Cursor.ofOffset text (n + (rowText before).length) := by
    rw [place_of_match? hfound, Cursor.ofOffset_skip]
  have hoffset : found.place.offset = n + (rowText before).length := by
    rw [hplace, Cursor.offset_ofOffset, Nat.min_eq_left (by omega)]
  rw [Cursor.ofOffset_skip, ← hplace] at hfound
  exact ⟨before, c, after, hrow, by rw [hoffset, hplace], hoffset, by omega, hfound, hnone⟩

/-- Where the bracket that closes another one stands, in terms of the text. -/
theorem Cursor.exists_split_of_closing? {text : Text} {b : Nat} {close : Cursor}
    (h : (Cursor.ofOffset text b).closing? = some close) :
    ∃ inner closer more, lexemes none (text.drop b) = inner ++ closer :: more ∧ StaysOpen 0 inner
      ∧ closesAt (depthThrough 0 inner) closer = true ∧ close = Cursor.ofOffset text close.offset
      ∧ close.offset = b + (rowText inner).length ∧ close.offset < text.length := by
  rw [closing?_eq_placed, Cursor.rest_ofOffset] at h
  rcases staysOpen_or_split 0 (lexemes none (text.drop b)) with
    hopen | ⟨inner, closer, more, hrow, hopen, hcloses⟩
  · rw [closingAmong_placed_of_staysOpen hopen] at h
    cases h
  · rw [hrow, closingAmong_placed_closer hopen hcloses, Cursor.ofOffset_skip] at h
    obtain rfl := Option.some.inj h
    have hmem : closer ∈ lexemes none (text.drop b) := by simp [hrow]
    have hpos := List.length_pos_iff.mpr (text_ne_nil_of_mem_lexemes hmem)
    have hlength := congrArg List.length (drop_of_split hrow)
    simp only [List.length_drop, rowText_cons, List.length_append] at hlength
    have hoffset : (Cursor.ofOffset text (b + (rowText inner).length)).offset
        = b + (rowText inner).length := by
      rw [Cursor.offset_ofOffset, Nat.min_eq_left (by omega)]
    exact ⟨inner, closer, more, hrow, hopen, hcloses, by rw [hoffset], hoffset, by omega⟩

/-! ### Cutting a text off

What is read up to an offset may depend on what follows, since a literal may be closed there.  Cut
off where a lexeme ends, the text is read as before.
-/

theorem take_drop_of_split {text : Text} {start stop : Nat} {front back : Text}
    (h : text.drop start = front ++ back) (hstop : start + front.length ≤ stop) :
    (text.take stop).drop start = front ++ back.take (stop - (start + front.length)) := by
  rw [List.drop_take, h, List.take_append]
  rw [List.take_of_length_le (by omega)]
  congr 2
  omega

/-- A text that is cut off behind some lexemes still begins with them. -/
theorem lexemes_take {text : Text} {start stop : Nat} {row more : List Lexeme}
    (h : lexemes none (text.drop start) = row ++ more)
    (hstop : start + (rowText row).length ≤ stop) :
    lexemes none ((text.take stop).drop start)
      = row ++ lexemes (lastAfterRow none row)
        ((rowText more).take (stop - (start + (rowText row).length))) := by
  have htext : text.drop start = rowText row ++ rowText more := by
    rw [← rowText_append, ← h, rowText_lexemes]
  rw [take_drop_of_split htext hstop]
  have hwhole : lexemes none (rowText row
      ++ ((rowText more).take (stop - (start + (rowText row).length))
        ++ (rowText more).drop (stop - (start + (rowText row).length)))) = row ++ more := by
    rw [List.take_append_drop, ← htext, h]
  exact lexemes_cut row none hwhole

/-- What matches in a text that is cut off matches in the whole text. -/
theorem Pattern.exists_match?_of_take {function text : Text} {m stop : Nat} {found : Match}
    (h : (objectCall function).match? (Cursor.ofOffset (text.take stop) m) = some found) :
    ∃ same, (objectCall function).match? (Cursor.ofOffset text m) = some same := by
  obtain ⟨gap, more, hrest, hgap, -⟩ := match?_objectCall.mp h
  rw [Cursor.rest_ofOffset, List.drop_take] at hrest
  obtain ⟨lost, hlost⟩ : ∃ lost, text.drop m = (text.drop m).take (stop - m) ++ lost :=
    ⟨_, (List.take_append_drop ..).symm⟩
  refine ⟨_, match?_objectCall.mpr ⟨gap, more ++ lost, ?_, hgap, rfl⟩⟩
  rw [Cursor.rest_ofOffset, hlost, hrest]
  simp

/-- A match that ends before the cut is there when the text is cut off. -/
theorem Pattern.match?_take {function text : Text} {m stop : Nat} {found : Match}
    (h : (objectCall function).match? (Cursor.ofOffset text m) = some found)
    (hstop : m + found.text.length ≤ stop) :
    (objectCall function).match? (Cursor.ofOffset (text.take stop) m)
      = some { found with place := Cursor.ofOffset (text.take stop) m } := by
  obtain ⟨gap, more, hrest, hgap, rfl⟩ := match?_objectCall.mp h
  rw [Cursor.rest_ofOffset] at hrest
  have hsplit : text.drop m = (function ++ '(' :: (gap ++ ['{'])) ++ more := by simpa using hrest
  have hkept := take_drop_of_split hsplit hstop
  exact match?_objectCall.mpr ⟨gap, _, by rw [Cursor.rest_ofOffset, hkept]; simp; rfl, hgap, rfl⟩

/-- The search for the next block finds the same match when the text is cut off behind it. -/
theorem Pattern.firstInCode?_take {function text : Text} {n stop : Nat} {found : Match}
    (h : (objectCall function).firstInCode? (Cursor.ofOffset text n) = some found)
    (hstop : found.place.offset + found.text.length ≤ stop) :
    (objectCall function).firstInCode? (Cursor.ofOffset (text.take stop) n)
      = some { found with place := Cursor.ofOffset (text.take stop) found.place.offset } := by
  obtain ⟨before, c, after, hrow, hplace, hoffset, -, hfound, hnone⟩ :=
    exists_split_of_firstInCode? h
  have hlength : 0 < found.text.length := by
    obtain ⟨gap, more, -, -, hshape⟩ := match?_objectCall.mp hfound
    rw [hshape]
    simp only [List.length_append, List.length_cons]
    omega
  have hsplit : lexemes none (text.drop n) = (before ++ [.code c]) ++ after := by simpa using hrow
  have hbehind : n + (rowText (before ++ [.code c])).length ≤ stop := by
    simp [Lexeme.text]
    omega
  have hkept := lexemes_take hsplit hbehind
  rw [List.append_assoc, List.singleton_append] at hkept
  refine firstInCode?_eq_some_iff.mpr ⟨before, c, _, by rw [Cursor.rest_ofOffset, hkept], ?_, ?_⟩
  · rw [Cursor.ofOffset_skip, ← hoffset]
    rw [hplace] at hfound
    exact match?_take hfound hstop
  · intro token htoken
    obtain ⟨front, back, hsplit, htoken'⟩ := mem_placed_iff.mp htoken
    have hthere := hnone ⟨(Cursor.ofOffset text n).skip (rowText front).length, token.lexeme⟩
      (mem_placed_iff.mpr ⟨front, back, hsplit, rfl⟩)
    unfold matchToken? at hthere ⊢
    rw [Cursor.ofOffset_skip] at htoken' hthere
    split
    · rename_i d hd
      rw [hd] at hthere
      rw [Option.eq_none_iff_forall_ne_some]
      intro same hsame
      rw [htoken'] at hsame
      obtain ⟨other, hother⟩ := exists_match?_of_take hsame
      rw [hother] at hthere
      cases hthere
    · rfl

/-- A bracket is closed at the same place when the text is cut off behind that place. -/
theorem Cursor.closing?_take {text : Text} {b stop : Nat} {close : Cursor}
    (h : (Cursor.ofOffset text b).closing? = some close) (hstop : close.offset < stop) :
    (Cursor.ofOffset (text.take stop) b).closing?
      = some (Cursor.ofOffset (text.take stop) close.offset) := by
  obtain ⟨inner, closer, more, hrow, hopen, hcloses, hclose, hoffset, -⟩ :=
    exists_split_of_closing? h
  obtain ⟨c, rfl, -, -⟩ := closesAt_iff.mp hcloses
  have hsplit : lexemes none (text.drop b) = (inner ++ [.code c]) ++ more := by simpa using hrow
  have hbehind : b + (rowText (inner ++ [.code c])).length ≤ stop := by
    simp [Lexeme.text]
    omega
  have hkept := lexemes_take hsplit hbehind
  rw [List.append_assoc, List.singleton_append] at hkept
  rw [closing?_eq_placed, Cursor.rest_ofOffset, hkept, closingAmong_placed_closer hopen hcloses,
    Cursor.ofOffset_skip, ← hoffset]

/-! ### Where blocks stand

Spans say where blocks stand without saying what they hold, so they are what a text and its front
part have in common.
-/

namespace Pattern

theorem bracket_eq {text : Text} {found : Match}
    (h : found.place = Cursor.ofOffset text found.place.offset) :
    found.bracket = Cursor.ofOffset text (found.place.offset + (found.text.length - 1)) := by
  rw [Match.bracket, h, Cursor.ofOffset_skip, ← h]

theorem rest_lt_of_block {pattern : Pattern} {place close : Cursor} {found : Match}
    (hfound : pattern.firstInCode? place = some found)
    (hclose : found.bracket.closing? = some close) :
    (close.skip 1).rest.length < place.rest.length := by
  have hsearch := rest_of_firstInCode? hfound
  have hclosing := Cursor.rest_of_closing? hclose
  have hbracket : found.bracket.rest.length ≤ found.place.rest.length :=
    Cursor.length_rest_skip_le _ _
  have hnext := Cursor.length_rest_skip_lt Nat.one_pos hclosing.1
  omega

/-- Where the blocks at or after a place stand: the offset of the first character of each, and the
offset behind its last one. -/
def blockSpansFrom (pattern : Pattern) (place : Cursor) : List (Nat × Nat) :=
  match _ : pattern.firstInCode? place with
  | none => []
  | some found =>
    match _ : found.bracket.closing? with
    | none => [(found.place.offset, found.place.offset + found.place.rest.length)]
    | some close => (found.place.offset, close.offset + 1) :: blockSpansFrom pattern (close.skip 1)
termination_by place.rest.length
decreasing_by
  rename_i hfound hclose
  exact rest_lt_of_block hfound hclose

def blockSpans (pattern : Pattern) (text : Text) : List (Nat × Nat) :=
  pattern.blockSpansFrom (Cursor.ofText text)

section

variable {pattern : Pattern} {place close : Cursor} {found : Match}

theorem blockSpansFrom_of_none (h : pattern.firstInCode? place = none) :
    pattern.blockSpansFrom place = [] := by
  rw [blockSpansFrom]
  split <;> simp_all

theorem blockSpansFrom_of_open (hfound : pattern.firstInCode? place = some found)
    (hopen : found.bracket.closing? = none) :
    pattern.blockSpansFrom place
      = [(found.place.offset, found.place.offset + found.place.rest.length)] := by
  rw [blockSpansFrom]
  split
  · simp_all
  · split <;> simp_all

theorem blockSpansFrom_of_closed (hfound : pattern.firstInCode? place = some found)
    (hclose : found.bracket.closing? = some close) :
    pattern.blockSpansFrom place
      = (found.place.offset, close.offset + 1) :: pattern.blockSpansFrom (close.skip 1) := by
  rw [blockSpansFrom]
  split
  · simp_all
  · split <;> simp_all

theorem blocksFrom_of_none (h : pattern.firstInCode? place = none) :
    pattern.blocksFrom place = [] := by
  rw [blocksFrom]
  split <;> simp_all

theorem blocksFrom_of_open (hfound : pattern.firstInCode? place = some found)
    (hopen : found.bracket.closing? = none) : pattern.blocksFrom place = [found.place.rest] := by
  rw [blocksFrom]
  split
  · simp_all
  · split <;> simp_all

theorem blocksFrom_of_closed (hfound : pattern.firstInCode? place = some found)
    (hclose : found.bracket.closing? = some close) :
    pattern.blocksFrom place
      = found.place.upTo (close.skip 1) :: pattern.blocksFrom (close.skip 1) := by
  rw [blocksFrom]
  split
  · simp_all
  · split <;> simp_all

end

/-- Where a block of a text that is closed begins and ends. -/
theorem offsets_of_block {pattern : Pattern} {text : Text} {n : Nat}
    {found : Match} {close : Cursor}
    (hfound : pattern.firstInCode? (Cursor.ofOffset text n) = some found)
    (hclose : found.bracket.closing? = some close) :
    n ≤ found.place.offset ∧ found.place.offset + (found.text.length - 1) ≤ close.offset
      ∧ close.offset < text.length ∧ close.skip 1 = Cursor.ofOffset text (close.offset + 1) := by
  obtain ⟨_, _, _, _, hplace, hoffset, -⟩ := exists_split_of_firstInCode? hfound
  rw [bracket_eq hplace] at hclose
  obtain ⟨_, _, _, -, -, -, hat, hbehind, hlt⟩ := Cursor.exists_split_of_closing? hclose
  refine ⟨by omega, by omega, hlt, ?_⟩
  rw [hat, Cursor.ofOffset_skip, ← hat]

/-- The texts of the blocks are the slices between the offsets. -/
theorem blocksFrom_eq_slices (pattern : Pattern) (text : Text) (place : Cursor) :
    ∀ n, place = Cursor.ofOffset text n →
      pattern.blocksFrom place
        = (pattern.blockSpansFrom place).map fun span => text.slice span.1 span.2 := by
  fun_induction blockSpansFrom pattern place with
  | case1 place hnone =>
    intro n _
    rw [blocksFrom_of_none hnone]
    rfl
  | case2 place found hfound hopen =>
    rintro n rfl
    obtain ⟨_, _, _, _, hplace, -⟩ := exists_split_of_firstInCode? hfound
    have hrest : found.place.rest = text.drop found.place.offset := by
      rw [← Cursor.rest_ofOffset, ← hplace]
    rw [blocksFrom_of_open hfound hopen, List.map_singleton, Text.slice,
      Nat.add_sub_cancel_left, hrest, List.take_length]
  | case3 place found hfound close hclose ih =>
    rintro n rfl
    obtain ⟨_, _, _, _, hplace, -⟩ := exists_split_of_firstInCode? hfound
    obtain ⟨-, -, hlt, hnext⟩ := offsets_of_block hfound hclose
    have hrest : found.place.rest = text.drop found.place.offset := by
      rw [← Cursor.rest_ofOffset, ← hplace]
    rw [blocksFrom_of_closed hfound hclose, List.map_cons, ih _ hnext, Cursor.upTo,
      Text.slice, hrest, hnext, Cursor.offset_ofOffset, Nat.min_eq_left hlt]

theorem blocks_eq_slices (pattern : Pattern) (text : Text) :
    pattern.blocks text = (pattern.blockSpans text).map fun span => text.slice span.1 span.2 :=
  blocksFrom_eq_slices pattern text _ 0 rfl

/-- The block that stands at a span. -/
theorem getElem?_blocks {pattern : Pattern} {text : Text} {front back : List (Nat × Nat)}
    {span : Nat × Nat} (h : pattern.blockSpans text = front ++ span :: back) :
    (pattern.blocks text)[front.length]? = some (text.slice span.1 span.2) := by
  rw [blocks_eq_slices, h]
  simp

/-- Blocks stand behind the place where the search for them begins, and inside the text. -/
theorem bounds_of_mem_blockSpansFrom {pattern : Pattern} {text : Text}
    {place : Cursor} {span : Nat × Nat} (h : span ∈ pattern.blockSpansFrom place) :
    ∀ n, place = Cursor.ofOffset text n → n ≤ text.length → n ≤ span.1 ∧ n ≤ span.2
      ∧ span.2 ≤ text.length := by
  fun_induction blockSpansFrom pattern place with
  | case1 => cases h
  | case2 place found hfound hopen =>
    rintro n rfl hn
    obtain rfl := List.mem_singleton.mp h
    obtain ⟨_, _, _, _, hplace, hoffset, hlt, -⟩ := exists_split_of_firstInCode? hfound
    have hrest : found.place.rest = text.drop found.place.offset := by
      rw [← Cursor.rest_ofOffset, ← hplace]
    simp only [hrest, List.length_drop]
    omega
  | case3 place found hfound close hclose ih =>
    rintro n rfl hn
    obtain ⟨hstart, hclosed, hlt, hnext⟩ := offsets_of_block hfound hclose
    rcases List.mem_cons.mp h with rfl | h
    · dsimp only
      omega
    · have := ih h _ hnext hlt
      omega

/-- **A text that is cut off where a block ends has the same blocks up to there.** -/
theorem blockSpansFrom_take {function text : Text} (place : Cursor) :
    ∀ (n : Nat) (front back : List (Nat × Nat)) (span : Nat × Nat), place = Cursor.ofOffset text n →
      n ≤ text.length → (objectCall function).blockSpansFrom place = front ++ span :: back →
      (objectCall function).blockSpansFrom (Cursor.ofOffset (text.take span.2) n)
        = front ++ [span] := by
  fun_induction blockSpansFrom (objectCall function) place with
  | case1 =>
    intro n front back span _ _ h
    simp at h
  | case2 place found hfound hopen =>
    rintro n front back span rfl hn h
    obtain ⟨rfl, hspan⟩ : front = []
      ∧ span = (found.place.offset, found.place.offset + found.place.rest.length) := by
      cases front <;> simp_all
    obtain ⟨_, _, _, _, hplace, hoffset, hlt, -⟩ := exists_split_of_firstInCode? hfound
    -- A block that nothing closes ends where the text ends, so nothing is cut off.
    have hwhole : text.take span.2 = text := by
      have hrest : found.place.rest = text.drop found.place.offset := by
        rw [← Cursor.rest_ofOffset, ← hplace]
      rw [hspan, hrest, List.length_drop, List.take_of_length_le (by dsimp only; omega)]
    rw [hwhole, blockSpansFrom_of_open hfound hopen, hspan]
    rfl
  | case3 place found hfound close hclose ih =>
    rintro n front back span rfl hn h
    obtain ⟨hstart, hclosed, hlt, hnext⟩ := offsets_of_block hfound hclose
    have hstop : close.offset + 1 ≤ span.2 := by
      cases front with
      | nil =>
        obtain ⟨rfl, -⟩ := List.cons.inj h
        exact Nat.le_refl _
      | cons first front =>
        have hmem : span ∈ (objectCall function).blockSpansFrom (close.skip 1) :=
          (List.cons.inj h).2 ▸ List.mem_append_right front List.mem_cons_self
        exact (bounds_of_mem_blockSpansFrom hmem _ hnext hlt).2.1
    obtain ⟨_, _, _, _, hplace, -⟩ := exists_split_of_firstInCode? hfound
    have hlength : (text.take span.2).length = min span.2 text.length := List.length_take
    have hbefore : found.place.offset + found.text.length ≤ span.2 := by omega
    have hfound' := firstInCode?_take hfound hbefore
    have hclose' := hclose
    rw [bracket_eq hplace] at hclose'
    replace hclose' := Cursor.closing?_take hclose' hstop
    rw [blockSpansFrom_of_closed hfound'
      (by rw [Match.bracket, Cursor.ofOffset_skip]; exact hclose'), Cursor.ofOffset_skip,
      Cursor.offset_ofOffset, Cursor.offset_ofOffset, Nat.min_eq_left (by omega),
      Nat.min_eq_left (by omega)]
    cases front with
    | nil =>
      obtain ⟨rfl, -⟩ := List.cons.inj h
      have hend : (objectCall function).firstInCode?
          (Cursor.ofOffset (text.take (close.offset + 1)) (close.offset + 1)) = none := by
        rw [firstInCode?_eq_placed, Cursor.rest_ofOffset, List.drop_eq_nil_of_le
          (List.length_take_le _ _), lexemes_nil]
        rfl
      rw [blockSpansFrom_of_none hend]
      rfl
    | cons first front =>
      obtain ⟨rfl, htail⟩ := List.cons.inj h
      rw [ih _ front back span hnext hlt htail]
      rfl

theorem blocks_take {function text : Text} {front back : List (Nat × Nat)} {span : Nat × Nat}
    (h : (objectCall function).blockSpans text = front ++ span :: back) :
    (objectCall function).blocks (text.take span.2)
      = ((objectCall function).blocks text).take (front.length + 1) := by
  have hkept : (objectCall function).blockSpans (text.take span.2) = front ++ [span] :=
    blockSpansFrom_take _ 0 front back span rfl (Nat.zero_le _) h
  have hsplit : front ++ span :: back = (front ++ [span]) ++ back := by simp
  have hlength : front.length + 1 = (front ++ [span]).length := by simp
  rw [blocks_eq_slices, blocks_eq_slices, hkept, h, hsplit, ← List.map_take,
    hlength, List.take_left]
  refine List.map_congr_left ?_
  intro other hother
  rw [← hkept] at hother
  have hbound := (bounds_of_mem_blockSpansFrom hother 0 rfl (Nat.zero_le _)).2.2
  rw [List.length_take] at hbound
  rw [Text.slice, Text.slice, List.drop_take, List.take_take, Nat.min_eq_left (by omega)]

end Pattern

end GroqSnippets
