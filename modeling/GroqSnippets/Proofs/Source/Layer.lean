/-
The windows that the reader cuts.

Three kinds of windows are cut out of a text: the contents of a list behind a key, the blocks of a
declaration, and the objects that sit in a list.  Each begins at a character that a scan of the text
reads as code, or directly behind a bracket that it reads as one, and ends where such a bracket is
closed.  So a scan of a window sees what the scan of its text sees there, and since windows are cut
out of windows, all layers of the reading agree about what is code.

The text around a block is scanned from where the block before it ends, because that is where the
search for the next block starts.
-/
import GroqSnippets.Proofs.Source.Block
import GroqSnippets.Schema.Reading

namespace GroqSnippets

/-! ### Brackets that a search finds

A pattern that ends in a bracket is plain up to there.  So when its first character is read as code,
all of it is, and the bracket is seen by the scan.
-/

theorem isPlain_of_isBlank {c : Char} (h : isBlank c = true) : isPlain c = true := by
  unfold isPlain
  by_contra hc
  simp only [Bool.and_eq_true, Bool.not_eq_true', bne_iff_ne, ne_eq, not_and_or, Bool.not_eq_false,
    Decidable.not_not, isQuote, Bool.or_eq_true, beq_iff_eq] at hc
  rcases hc with ((rfl | rfl) | rfl) | rfl <;> revert h <;> decide

/-- A word, a mark, blanks and a bracket are plain if the word is. -/
theorem isPlain_of_mem_shape {word gap : Text} (mark bracket : Char)
    (hword : ∀ c ∈ word, isPlain c = true) (hmark : isPlain mark = true)
    (hgap : ∀ c ∈ gap, isBlank c = true) (hbracket : isPlain bracket = true) :
    ∀ c ∈ (word ++ mark :: gap) ++ [bracket], isPlain c = true := by
  intro c hc
  simp only [List.mem_append, List.mem_cons, List.not_mem_nil, or_false] at hc
  rcases hc with (hc | rfl | hc) | rfl
  · exact hword c hc
  · exact hmark
  · exact isPlain_of_isBlank (hgap c hc)
  · exact hbracket

/-- What a plain match spells is read as code, character by character. -/
theorem located_subset_seen {pattern : Pattern} {text : Text} {n : Nat}
    {found : Match} {more : Text} (hn : n ≤ text.length)
    (h : pattern.firstInCode? (Cursor.ofOffset text n) = some found)
    (hplain : ∀ c ∈ found.text, isPlain c = true) (hrest : found.place.rest = found.text ++ more) :
    ∀ front c back, found.text = front ++ c :: back →
      (found.place.offset + front.length, .code c) ∈ text.seen n := by
  intro front c back hsplit
  obtain ⟨before, d, after, hrow, hplace, hoffset, -⟩ := Pattern.exists_split_of_firstInCode? h
  have htext : rowText (.code d :: after) = found.text ++ more := by
    rw [← drop_of_split hrow, ← hoffset, ← Cursor.rest_ofOffset, ← hplace, hrest]
  -- What stands behind the match is read with the memory of what stands before it.
  obtain ⟨row, hafter⟩ : ∃ row, .code d :: after = found.text.map .code ++ row := by
    have hwhole : lexemes none (rowText (before ++ .code d :: after))
        = before ++ .code d :: after := by
      rw [← hrow, rowText_lexemes]
    have hread := lexemes_rowText_append hwhole
    rw [htext, lexemes_append_of_isPlain hplain] at hread
    exact ⟨_, hread⟩
  rw [seen_eq hn, hrow, hafter, hsplit, List.map_append, List.map_cons,
    List.append_assoc, located_append, located_append]
  refine List.mem_filter.mpr ⟨List.mem_append_right _ (List.mem_append_right _ ?_), rfl⟩
  have hfront : (rowText (front.map .code)).length = front.length := by
    simp [rowText, List.flatMap_map, Lexeme.text]
  rw [hfront, ← hoffset]
  exact List.mem_cons_self

theorem window_eq_slice {text : Text} {m n : Nat} :
    (Cursor.ofOffset text m).window (Cursor.ofOffset text n).closing?
      = text.slice m (closingOffset text n) := by
  unfold closingOffset Cursor.window
  cases hclose : (Cursor.ofOffset text n).closing? with
  | none =>
    simp only [Cursor.rest_ofOffset, Text.slice]
    rw [List.take_of_length_le (by rw [List.length_drop])]
  | some close =>
    simp only [Cursor.upTo, Cursor.rest_ofOffset, Cursor.offset_ofOffset, Text.slice]
    rcases Nat.le_total m text.length with hle | hle
    · rw [Nat.min_eq_left hle]
    · rw [List.drop_eq_nil_of_le hle, List.take_nil, List.take_nil]

/-! ### Sections -/

/-- A section begins directly behind a bracket that the scan of its text reads as code, and reaches
up to where that bracket is closed. -/
theorem Pattern.exists_opener_of_section? {key text window : Text}
    (hkey : ∀ c ∈ key, isPlain c = true) (h : (keyList key).section? text = some window) :
    ∃ o, (o, .code '[') ∈ text.seen 0 ∧ window = text.slice (o + 1) (closingOffset text o) := by
  obtain ⟨found, hfound, rfl⟩ := Option.map_eq_some_iff.mp h
  obtain ⟨_, _, _, _, hplace, -, -, hmatch, -⟩ := exists_split_of_firstInCode? (n := 0) hfound
  obtain ⟨-, gap, more, hrest, hgap, hshape⟩ := match?_keyList.mp hmatch
  have htext : found.text = (key ++ ':' :: gap) ++ ['['] := by
    rw [hshape]
    simp
  have hplain := isPlain_of_mem_shape ':' '[' hkey (by decide) hgap (by decide)
  have hrest' : found.place.rest = found.text ++ more := by simpa [htext] using hrest
  have hseen := located_subset_seen (Nat.zero_le _) hfound (htext ▸ hplain) hrest' _ _ _ htext
  refine ⟨_, hseen, ?_⟩
  have hbracket : found.bracket
      = Cursor.ofOffset text (found.place.offset + (key ++ ':' :: gap).length) := by
    rw [bracket_eq hplace, htext, List.length_append, List.length_singleton, Nat.add_sub_cancel]
  rw [hbracket, Cursor.ofOffset_skip, window_eq_slice]

theorem Pattern.exists_section {key text window : Text} (hkey : ∀ c ∈ key, isPlain c = true)
    (h : (keyList key).section? text = some window) :
    ∃ lo hi, window = text.slice lo hi
      ∧ movedOn lo (window.seen 0) = within lo hi (text.seen 0) := by
  obtain ⟨o, hseen, rfl⟩ := exists_opener_of_section? hkey h
  exact ⟨_, _, rfl, seen_section hseen (by decide)⟩

/-! ### Blocks

A block begins with the name of a call, whose first character settles what a slash behind it is, and
the next search begins behind a closing bracket, which does so too.
-/

namespace Pattern

section

variable {first : Char} {name text : Text}

/-- Where a search for a declaration ends, the first character of its match and its bracket stand in
the text, and the search saw them. -/
theorem exists_opener_of_firstInCode? (hfirst : isSettling first = true)
    (hname : ∀ c ∈ name, isPlain c = true) {n : Nat} {found : Match} (hn : n ≤ text.length)
    (h : (objectCall (first :: name)).firstInCode? (Cursor.ofOffset text n) = some found) :
    ∃ o, found.bracket = Cursor.ofOffset text o ∧ found.place.offset ≤ o
      ∧ (found.place.offset, .code first) ∈ text.seen n ∧ (o, .code '{') ∈ text.seen n := by
  obtain ⟨_, _, _, _, hplace, -, -, hmatch, -⟩ := exists_split_of_firstInCode? h
  obtain ⟨gap, more, hrest, hgap, hshape⟩ := match?_objectCall.mp hmatch
  have htext : found.text = (first :: name ++ '(' :: gap) ++ ['{'] := by
    rw [hshape]
    simp
  have hword : ∀ c ∈ first :: name, isPlain c = true := by
    simp only [isSettling, Bool.and_eq_true] at hfirst
    exact List.forall_mem_cons.mpr ⟨hfirst.1, hname⟩
  have hplain := isPlain_of_mem_shape '(' '{' hword (by decide) hgap (by decide)
  have hrest' : found.place.rest = found.text ++ more := by simpa [htext] using hrest
  have hseen := located_subset_seen hn h (htext ▸ hplain) hrest'
  have hstart := hseen [] first (name ++ '(' :: (gap ++ ['{'])) (by simpa using htext)
  have hopener := hseen _ '{' [] htext
  have hbracket := bracket_eq hplace
  rw [htext, List.length_append, List.length_singleton, Nat.add_sub_cancel] at hbracket
  exact ⟨_, hbracket, Nat.le_add_right _ _, hstart, hopener⟩

/-- A scan of the block up to the partner of that bracket sees what the search saw there. -/
theorem seen_of_firstInCode? (hfirst : isSettling first = true)
    (hname : ∀ c ∈ name, isPlain c = true) {n : Nat} {found : Match} (hn : n ≤ text.length)
    (h : (objectCall (first :: name)).firstInCode? (Cursor.ofOffset text n) = some found) :
    ∃ o, found.bracket = Cursor.ofOffset text o
      ∧ movedOn found.place.offset
        ((text.slice found.place.offset (closingOffset text o + 1)).seen 0)
        = within found.place.offset (closingOffset text o + 1) (text.seen n) := by
  obtain ⟨o, hbracket, hle, hstart, hopener⟩ := exists_opener_of_firstInCode? hfirst hname hn h
  exact ⟨o, hbracket, seen_block hstart hfirst hopener (by decide) hle⟩

theorem seen_blockSpansFrom (hfirst : isSettling first = true)
    (hname : ∀ c ∈ name, isPlain c = true) (place : Cursor) :
    ∀ (n : Nat) (front back : List (Nat × Nat)) (span : Nat × Nat), place = Cursor.ofOffset text n →
      n ≤ text.length → (objectCall (first :: name)).blockSpansFrom place = front ++ span :: back →
      movedOn span.1 ((text.slice span.1 span.2).seen 0)
        = within span.1 span.2 (text.seen ((front.getLast?.map Prod.snd).getD n)) := by
  fun_induction blockSpansFrom (objectCall (first :: name)) place with
  | case1 =>
    intro n front back span _ _ h
    simp at h
  | case2 place found hfound hopen =>
    rintro n front back span rfl hn h
    obtain ⟨rfl, rfl⟩ : front = []
      ∧ span = (found.place.offset, found.place.offset + found.place.rest.length) := by
      cases front <;> simp_all
    obtain ⟨_, _, _, _, hplace, -, hlt, -⟩ := exists_split_of_firstInCode? hfound
    obtain ⟨o, hbracket, hseen⟩ := seen_of_firstInCode? hfirst hname hn hfound
    have hclosing : closingOffset text o = text.length := by
      rw [closingOffset, ← hbracket, hopen]
    have hstop : found.place.offset + found.place.rest.length = text.length := by
      rw [hplace, Cursor.rest_ofOffset, ← hplace, List.length_drop]
      omega
    rw [hclosing, slice_beyond, within_beyond] at hseen
    simpa [hstop] using hseen
  | case3 place found hfound close hclose ih =>
    rintro n front back span rfl hn h
    obtain ⟨-, -, hlt, hnext⟩ := offsets_of_block hfound hclose
    cases front with
    | nil =>
      obtain ⟨rfl, -⟩ := List.cons.inj h
      obtain ⟨o, hbracket, hseen⟩ := seen_of_firstInCode? hfirst hname hn hfound
      have hclosing : closingOffset text o = close.offset := by
        rw [closingOffset, ← hbracket, hclose]
      rw [hclosing] at hseen
      exact hseen
    | cons before front =>
      obtain ⟨rfl, htail⟩ := List.cons.inj h
      rw [ih _ front back span hnext hlt htail]
      cases hlast : front.getLast? <;> simp [List.getLast?_cons, hlast]

/-- Behind a block that a brace closes, a new search sees what the search for the block sees there. -/
theorem seen_behind_block (hfirst : isSettling first = true)
    (hname : ∀ c ∈ name, isPlain c = true) {n : Nat} {found : Match} {close : Cursor}
    (hn : n ≤ text.length)
    (hfound : (objectCall (first :: name)).firstInCode? (Cursor.ofOffset text n) = some found)
    (hclose : found.bracket.closing? = some close) (hbrace : text[close.offset]? = some '}') :
    text.seen (close.offset + 1)
      = (text.seen n).filter fun (position, _) => decide (close.offset + 1 ≤ position) := by
  obtain ⟨o, hbracket, -, -, hopener⟩ := exists_opener_of_firstInCode? hfirst hname hn hfound
  obtain ⟨-, -, hlt, -⟩ := offsets_of_block hfound hclose
  have hclosing : closingOffset text o = close.offset := by rw [closingOffset, ← hbracket, hclose]
  obtain ⟨closer, hcloser⟩ := seen_closer hopener (by decide) (hclosing ▸ hlt)
  rw [hclosing] at hcloser
  rw [getElem?_of_mem_seen hcloser] at hbrace
  obtain rfl := Option.some.inj hbrace
  exact seen_behind hcloser (by decide) (by decide)

/-- Behind blocks that end in a closing brace, new searches see all that a scan from the first
search on sees there. -/
theorem mem_seen_behind_block (hfirst : isSettling first = true)
    (hname : ∀ c ∈ name, isPlain c = true) (place : Cursor) :
    ∀ n, place = Cursor.ofOffset text n → n ≤ text.length →
      (∀ span ∈ (objectCall (first :: name)).blockSpansFrom place,
        (text.slice span.1 span.2).getLast? = some '}') →
      ∀ span ∈ (objectCall (first :: name)).blockSpansFrom place, ∀ item ∈ text.seen n,
        span.2 ≤ item.1 → item ∈ text.seen span.2 := by
  fun_induction blockSpansFrom (objectCall (first :: name)) place with
  | case1 =>
    intro n _ _ _ span hspan
    cases hspan
  | case2 place found hfound hopen =>
    rintro n rfl hn - span hspan item hitem hle
    -- The block ends with the text, and there is nothing behind it.
    obtain rfl := List.mem_singleton.mp hspan
    obtain ⟨_, _, _, _, hplace, -, hlt, -⟩ := exists_split_of_firstInCode? hfound
    have hitemLt := position_lt_of_mem_seen hitem
    rw [hplace, Cursor.rest_ofOffset, ← hplace, List.length_drop] at hle
    omega
  | case3 place found hfound close hclose ih =>
    rintro n rfl hn hbraces span hspan item hitem hle
    obtain ⟨-, hinside, hlt, hnext⟩ := offsets_of_block hfound hclose
    obtain ⟨hbrace, hbraces⟩ := List.forall_mem_cons.mp hbraces
    have hbehind : ∀ item ∈ text.seen n, close.offset + 1 ≤ item.1 →
        item ∈ text.seen (close.offset + 1) := by
      rw [getLast?_slice (by omega) hlt] at hbrace
      intro item hitem hle
      rw [seen_behind_block hfirst hname hn hfound hclose hbrace]
      exact List.mem_filter.mpr ⟨hitem, decide_eq_true hle⟩
    rcases List.mem_cons.mp hspan with rfl | hspan
    · exact hbehind item hitem hle
    · have hspanLe := (bounds_of_mem_blockSpansFrom hspan _ hnext hlt).2.1
      exact ih _ hnext hlt hbraces span hspan item (hbehind item hitem (by omega)) hle

end

end Pattern

/-! ### Objects -/

/-- Among the tokens behind a settling character, the bracket that closes it is the one that a scan
from there finds. -/
theorem closingAmong_of_suffix {text : Text} {token : Token} {tokens : List Token} {c : Char}
    (h : token :: tokens <:+ (Cursor.ofText text).tokens) (hlexeme : token.lexeme = .code c)
    (hc : isSettling c = true) :
    token.place = Cursor.ofOffset text token.place.offset
      ∧ (token.place.offset, .code c) ∈ text.seen 0
      ∧ closingAmong 0 (token :: tokens) = token.place.closing? := by
  obtain ⟨front, hfront⟩ := h
  have hseen : (token.place.offset, .code c) ∈ text.seen 0 := by
    refine List.mem_map.mpr ⟨token, ?_, by rw [hlexeme]⟩
    show token ∈ (Cursor.ofText text).tokens
    rw [← hfront]
    simp
  rw [Cursor.tokens, lexemesFrom_eq] at hfront
  obtain ⟨read, rest, hplaced, -, hrest⟩ := List.filter_eq_append_iff.mp hfront.symm
  obtain ⟨comments, more, rfl, -, -, hmore⟩ := List.filter_eq_cons_iff.mp hrest
  rw [← List.append_assoc] at hplaced
  obtain ⟨before, after, hrow, hbefore, hplace⟩ := exists_split_of_placed_eq_append hplaced
  have hplace' : token.place = Cursor.ofOffset text (rowText before).length := hplace
  have hrest' : token :: more = placed token.place (.code c :: after) := by
    rw [hrow, placed_append, hbefore, hlexeme, ← hplace] at hplaced
    exact (List.append_cancel_left hplaced).symm
  have hrow' : lexemes none (text.drop 0) = before ++ .code c :: after := hlexeme ▸ hrow
  have hdrop := lexemes_drop_of_isSettling hrow' hc
  rw [Nat.zero_add] at hdrop
  refine ⟨?_, hseen, ?_⟩
  · have hlt := position_lt_of_mem_seen hseen
    rw [hplace', Cursor.offset_ofOffset] at hlt ⊢
    rw [Nat.min_eq_left (by omega)]
  · calc closingAmong 0 (token :: tokens)
        = closingAmong 0 ((token :: more).filter fun token => !token.lexeme.isComment) := by
          rw [List.filter_cons, hmore, hlexeme]
          rfl
      _ = closingAmong 0 (placed token.place (lexemes none token.place.rest)) := by
          rw [closingAmong_filter, hrest', hplace', Cursor.rest_ofOffset, hdrop]
      _ = token.place.closing? := (closing?_eq_placed token.place).symm

/-- The text from a bracket through its partner, or to the end. -/
theorem slice_of_closing? {text : Text} {o : Nat} :
    text.slice o (closingOffset text o + 1)
      = match (Cursor.ofOffset text o).closing? with
        | some close => (Cursor.ofOffset text o).upTo (close.skip 1)
        | none => (Cursor.ofOffset text o).rest := by
  cases hclose : (Cursor.ofOffset text o).closing? with
  | none =>
    have hclosing : closingOffset text o = text.length := by rw [closingOffset, hclose]
    rw [hclosing, slice_beyond, Text.slice, List.take_of_length_le (by rw [List.length_drop]),
      Cursor.rest_ofOffset]
  | some close =>
    have hclosing : closingOffset text o = close.offset := by rw [closingOffset, hclose]
    obtain ⟨_, _, _, -, -, -, hat, hoffset, hlt⟩ := Cursor.exists_split_of_closing? hclose
    have hnext : (close.skip 1).offset = close.offset + 1 := by
      rw [hat, Cursor.ofOffset_skip, ← hat, Cursor.offset_ofOffset, Nat.min_eq_left hlt]
    rw [hclosing]
    simp only [Cursor.upTo, hnext, Cursor.rest_ofOffset, Cursor.offset_ofOffset, Text.slice]
    rw [Nat.min_eq_left (by omega)]

/-- An object begins at a brace that the scan of its list reads as code, and reaches through the
bracket that closes the brace. -/
theorem exists_opener_of_mem_objectsAmong {text object : Text}
    (depth resume : Nat) (tokens : List Token) (hsuffix : tokens <:+ (Cursor.ofText text).tokens)
    (h : object ∈ objectsAmong depth resume tokens) :
    ∃ o, (o, .code '{') ∈ text.seen 0 ∧ object = text.slice o (closingOffset text o + 1) := by
  have htail : ∀ {token : Token} {tokens : List Token},
      token :: tokens <:+ (Cursor.ofText text).tokens → tokens <:+ (Cursor.ofText text).tokens := by
    intro token tokens hall
    exact (List.suffix_cons token tokens).trans hall
  fun_induction objectsAmong depth resume tokens with
  | case1 => cases h
  | case3 resume token tokens hafter hlexeme hopen =>
    obtain ⟨hplace, hseen, hclosing⟩ := closingAmong_of_suffix hsuffix hlexeme (by decide)
    refine ⟨_, hseen, ?_⟩
    rw [slice_of_closing?, ← hplace, ← hclosing, hopen]
    exact List.mem_singleton.mp h
  | case4 resume token tokens hafter hlexeme close hclose ih =>
    rcases List.mem_cons.mp h with rfl | h
    · obtain ⟨hplace, hseen, hclosing⟩ := closingAmong_of_suffix hsuffix hlexeme (by decide)
      refine ⟨_, hseen, ?_⟩
      rw [slice_of_closing?, ← hplace, ← hclosing, hclose]
    · exact ih (htail hsuffix) h
  | case2 depth resume token tokens hbefore ih => exact ih (htail hsuffix) h
  | case5 depth resume token tokens hafter hlexeme hdepth ih => exact ih (htail hsuffix) h
  | case6 depth resume token tokens hafter hlexeme ih => exact ih (htail hsuffix) h
  | case7 depth resume token tokens hafter hlexeme ih => exact ih (htail hsuffix) h
  | case8 depth resume token tokens hafter hlexeme ih => exact ih (htail hsuffix) h
  | case9 depth resume token tokens =>
    rename_i ih
    exact ih (htail hsuffix) h

theorem exists_opener_of_mem_objects {text object : Text} (h : object ∈ objects text) :
    ∃ o, (o, .code '{') ∈ text.seen 0 ∧ object = text.slice o (closingOffset text o + 1) :=
  exists_opener_of_mem_objectsAmong 0 0 _ List.suffix_rfl h

/-! ### All layers -/

/-- **Windows show what the whole text shows.**  Behind an opening bracket that a scan sees, a new
scan from the bracket sees the same, and so do scans of what stands inside the bracket and of the
whole bracket; a bracket inside it is closed there at the same place.  So a scan of a section, of a
block or of an object that the reader cuts out sees what the scan of its text sees there. -/
theorem seen_in_windows (text : Text) :
    (∀ start o c, (o, .code c) ∈ text.seen start → isOpener c = true →
      let close := closingOffset text o
      text.seen o = (text.seen start).filter (fun (position, _) => decide (o ≤ position))
      ∧ movedOn (o + 1) ((text.slice (o + 1) close).seen 0) = within (o + 1) close (text.seen start)
      ∧ movedOn o ((text.slice o (close + 1)).seen 0) = within o (close + 1) (text.seen start)
      ∧ ∀ p d, (p, .code d) ∈ text.seen start → isOpener d = true → o < p → p < close →
          o + 1 + closingOffset (text.slice (o + 1) close) (p - (o + 1)) = closingOffset text p)
    ∧ (∀ pattern ∈ [ofPattern, fieldsPattern], ∀ window, pattern.section? text = some window →
        ∃ lo hi, window = text.slice lo hi
          ∧ movedOn lo (window.seen 0) = within lo hi (text.seen 0))
    ∧ (∀ front span back, fieldPattern.blockSpans text = front ++ span :: back →
        (fieldPattern.blocks text)[front.length]? = some (text.slice span.1 span.2)
        ∧ movedOn span.1 ((text.slice span.1 span.2).seen 0)
          = within span.1 span.2 (text.seen ((front.getLast?.map Prod.snd).getD 0)))
    ∧ (∀ object ∈ objects text,
        ∃ lo hi, object = text.slice lo hi
          ∧ movedOn lo (object.seen 0) = within lo hi (text.seen 0)) := by
  refine ⟨?_, ?_, ?_, ?_⟩
  · intro start o c h hc
    refine ⟨seen_from h hc, seen_section h hc,
      seen_block h (isSettling_of_isOpener hc) h hc (Nat.le_refl o), ?_⟩
    intro p d hp hd hlo hhi
    exact closingOffset_section h hc hp hd hlo hhi
  · intro pattern hpattern window h
    simp only [List.mem_cons, List.not_mem_nil, or_false] at hpattern
    rcases hpattern with rfl | rfl
    · exact Pattern.exists_section (List.all_eq_true.mp (by decide)) h
    · exact Pattern.exists_section (List.all_eq_true.mp (by decide)) h
  · intro front span back h
    refine ⟨Pattern.getElem?_blocks h, ?_⟩
    have hname : ∀ c ∈ "efineField".toList, isPlain c = true := List.all_eq_true.mp (by decide)
    exact Pattern.seen_blockSpansFrom (by decide) hname _ 0 front back span rfl (Nat.zero_le _) h
  · intro object h
    obtain ⟨o, hseen, rfl⟩ := exists_opener_of_mem_objects h
    exact ⟨o, _, rfl, seen_block hseen (by decide) hseen (by decide) (Nat.le_refl o)⟩

end GroqSnippets
