/-
The blocks of a text, told from one scan.

The search for blocks starts a new scan behind every block, and a new scan knows nothing of what
stands before it.  Yet which blocks a text has can be told from one scan of the whole text: a block
begins at each place that the scan reads as code, where a declaration begins, and that lies in no
block before it.

That holds for a text whose blocks end in braces, or with the text.  A brace is a character after
which a slash opens a regex, as at the start of a scan, so the scan that starts behind a block sees
the rest of what the first scan sees.  This is the invariant of the induction along the search.
-/
import GroqSnippets.Proofs.Source.Layer

namespace GroqSnippets

/-! ### What a search passes over

Whether an occurrence begins in code is asked of the whole text, and each search scans the text
anew.  Behind a closing brace a new scan sees what the scan of the whole text sees, and that is why
blocks are asked to end in one.
-/

/-- A token stands where its offset says. -/
theorem place_of_mem_tokens {text : Text} {n : Nat} {token : Token}
    (h : token ∈ (Cursor.ofOffset text n).tokens) :
    token.place = Cursor.ofOffset text token.place.offset := by
  have hrest := (Cursor.rest_of_mem_tokens h).1
  rw [Cursor.tokens, lexemesFrom_eq] at h
  obtain ⟨before, after, -, hplace⟩ := mem_placed_iff.mp (List.mem_filter.mp h).1
  rw [Cursor.ofOffset_skip] at hplace
  have hlt : n + (rowText before).length < text.length := by
    rw [hplace, Cursor.rest_ofOffset] at hrest
    simpa using hrest
  rw [hplace, Cursor.offset_ofOffset, Nat.min_eq_left (Nat.le_of_lt hlt)]

namespace Pattern

/-- Where the last character of the occurrence at an offset is closed, if an occurrence stands
there. -/
def closeAt? (pattern : Pattern) (text : Text) (m : Nat) : Option Nat :=
  (pattern.match? (Cursor.ofOffset text m)).map fun found =>
    closingOffset text (m + (found.text.length - 1))

/-- Whether an occurrence begins at an offset that a scan of the whole text reads as code, and its last
character is closed at another one. -/
structure BeginsAt (pattern : Pattern) (text : Text) (m close : Nat) : Prop where
  inCode : ∃ c, (m, .code c) ∈ text.seen 0
  closes : pattern.closeAt? text m = some close

/-- Whether spans are the blocks of a text from an offset on. -/
structure Enumerates (pattern : Pattern) (text : Text) (n : Nat) (spans : List (Nat × Nat)) :
    Prop where
  ordered : spans.Pairwise fun earlier later => earlier.1 < later.1 ∧ earlier.2 ≤ later.1
  sound : ∀ span ∈ spans, n ≤ span.1
    ∧ ∃ close, pattern.BeginsAt text span.1 close ∧ span.2 = min (close + 1) text.length
  /-- Each occurrence begins in one of them. -/
  complete : ∀ m close, n ≤ m → pattern.BeginsAt text m close →
    ∃ span ∈ spans, span.1 ≤ m ∧ m < span.2

section

variable {pattern : Pattern} {text : Text} {n m : Nat} {c : Char} {found : Match}

/-- No search comes to an end in front of an occurrence that begins in code. -/
theorem exists_firstInCode?_of_match? (h : (m, .code c) ∈ text.seen n)
    (hmatch : pattern.match? (Cursor.ofOffset text m) = some found) :
    ∃ first, pattern.firstInCode? (Cursor.ofOffset text n) = some first
      ∧ first.place.offset ≤ m := by
  obtain ⟨token, htoken, heq⟩ := List.mem_map.mp h
  obtain ⟨rfl, hcode⟩ := Prod.mk.inj heq
  have hfound : pattern.matchToken? token = some found := by
    rw [matchToken?, hcode, place_of_mem_tokens htoken, hmatch]
  rw [firstInCode?_eq]
  cases hfirst : (Cursor.ofOffset text n).tokens.findSome? pattern.matchToken? with
  | none =>
    have hnone := List.findSome?_eq_none_iff.mp hfirst token htoken
    rw [hfound] at hnone
    cases hnone
  | some first =>
    refine ⟨first, rfl, ?_⟩
    obtain ⟨front, here, back, hsplit, hhere, hnone⟩ := List.findSome?_eq_some_iff.mp hfirst
    rw [place_of_matchToken? hhere]
    have hsorted := pairwise_seen text n
    rw [Text.seen, hsplit, List.pairwise_map, List.pairwise_append, List.pairwise_cons] at hsorted
    rw [hsplit] at htoken
    rcases List.mem_append.mp htoken with htoken | htoken
    · rw [hnone token htoken] at hfound
      cases hfound
    · rcases List.mem_cons.mp htoken with rfl | htoken
      · exact Nat.le_refl _
      · exact Nat.le_of_lt (hsorted.2.1.1 token htoken)

theorem BeginsAt.lt_length {close : Nat} (h : pattern.BeginsAt text m close) : m < text.length := by
  obtain ⟨c, hc⟩ := h.inCode
  exact position_lt_of_mem_seen hc

theorem Enumerates.nil (h : ∀ m close, n ≤ m → ¬ pattern.BeginsAt text m close) :
    pattern.Enumerates text n [] where
  ordered := .nil
  sound := by simp
  complete m close hn hbegins := absurd hbegins (h m close hn)

/-- One block more in front. -/
theorem Enumerates.cons {close stop : Nat} {spans : List (Nat × Nat)} (hn : n ≤ m) (hlt : m < stop)
    (hbegins : pattern.BeginsAt text m close) (hstop : stop = min (close + 1) text.length)
    (hleft : ∀ m' close', n ≤ m' → pattern.BeginsAt text m' close' → m ≤ m')
    (h : pattern.Enumerates text stop spans) : pattern.Enumerates text n ((m, stop) :: spans) where
  ordered := by
    refine .cons ?_ h.ordered
    intro span hspan
    have hbehind := (h.sound span hspan).1
    exact ⟨Nat.lt_of_lt_of_le hlt hbehind, hbehind⟩
  sound := by
    intro span hspan
    rcases List.mem_cons.mp hspan with rfl | hspan
    · exact ⟨hn, close, hbegins, hstop⟩
    · obtain ⟨hbehind, hspan⟩ := h.sound span hspan
      exact ⟨by omega, hspan⟩
  complete := by
    intro m' close' hn' hbegins'
    by_cases hinside : m' < stop
    · exact ⟨(m, stop), List.mem_cons_self, hleft m' close' hn' hbegins', hinside⟩
    · obtain ⟨span, hspan, hcovers⟩ := h.complete m' close' (Nat.not_lt.mp hinside) hbegins'
      exact ⟨span, List.mem_cons_of_mem _ hspan, hcovers⟩

/-- The spans are just the places where an occurrence begins that no earlier span covers. -/
theorem Enumerates.mem_iff {spans : List (Nat × Nat)} (h : pattern.Enumerates text 0 spans)
    {span : Nat × Nat} :
    span ∈ spans ↔ (∃ close, pattern.BeginsAt text span.1 close
        ∧ span.2 = min (close + 1) text.length)
      ∧ ∀ earlier ∈ spans, earlier.1 < span.1 → earlier.2 ≤ span.1 := by
  constructor
  · intro hspan
    refine ⟨(h.sound span hspan).2, ?_⟩
    intro earlier hearlier hlt
    obtain ⟨front, back, rfl⟩ := List.append_of_mem hspan
    have hordered := h.ordered
    rw [List.pairwise_append, List.pairwise_cons] at hordered
    rcases List.mem_append.mp hearlier with hearlier | hearlier
    · exact (hordered.2.2 earlier hearlier span List.mem_cons_self).2
    · rcases List.mem_cons.mp hearlier with rfl | hearlier
      · exact absurd hlt (Nat.lt_irrefl _)
      · exact absurd (hordered.2.1.1 earlier hearlier).1 (Nat.lt_asymm hlt)
  · rintro ⟨⟨close, hbegins, hstop⟩, hbehind⟩
    obtain ⟨other, hother, hle, hlt⟩ := h.complete span.1 close (Nat.zero_le _) hbegins
    have hsame : other.1 = span.1 := by
      by_contra hne
      have := hbehind other hother (Nat.lt_of_le_of_ne hle hne)
      omega
    obtain ⟨-, close', hbegins', hstop'⟩ := h.sound other hother
    have hcloses := hbegins'.closes
    rw [hsame, hbegins.closes] at hcloses
    have hequal : other = span := by
      refine Prod.ext hsame ?_
      rw [hstop, hstop', Option.some.inj hcloses]
    rwa [← hequal]

/-- So no search passes over an occurrence of the whole text, if its scan sees it. -/
theorem exists_firstInCode?_of_beginsAt {close : Nat}
    (hseen : text.seen n = (text.seen 0).filter fun (position, _) => decide (n ≤ position))
    (hn : n ≤ m) (h : pattern.BeginsAt text m close) :
    ∃ first, pattern.firstInCode? (Cursor.ofOffset text n) = some first
      ∧ first.place.offset ≤ m := by
  obtain ⟨c, hc⟩ := h.inCode
  obtain ⟨found, hfound, -⟩ := Option.map_eq_some_iff.mp h.closes
  have hmem : (m, .code c) ∈ text.seen n := by
    rw [hseen]
    exact List.mem_filter.mpr ⟨hc, decide_eq_true hn⟩
  exact exists_firstInCode?_of_match? hmem hfound

theorem closeAt?_of_firstInCode? {o : Nat}
    (h : pattern.firstInCode? (Cursor.ofOffset text n) = some found)
    (ho : found.bracket = Cursor.ofOffset text o) :
    pattern.closeAt? text found.place.offset = some (closingOffset text o) := by
  obtain ⟨_, _, _, _, hplace, -, -, hmatch, -⟩ := exists_split_of_firstInCode? h
  have hsame : Cursor.ofOffset text (found.place.offset + (found.text.length - 1))
      = Cursor.ofOffset text o := by rw [← bracket_eq hplace, ho]
  rw [hplace] at hmatch
  rw [closeAt?, hmatch, Option.map_some, closingOffset, hsame, closingOffset]

end

section

variable {first : Char} {name text : Text}

/-- What the search from an offset finds is an occurrence of the whole text, and no other one begins
between the offset and it. -/
theorem begins_of_firstInCode? (hfirst : isSettling first = true)
    (hname : ∀ c ∈ name, isPlain c = true) {n : Nat} {found : Match} (hn : n ≤ text.length)
    (hseen : text.seen n = (text.seen 0).filter fun (position, _) => decide (n ≤ position))
    (h : (objectCall (first :: name)).firstInCode? (Cursor.ofOffset text n) = some found) :
    ∃ o, found.bracket = Cursor.ofOffset text o ∧ n ≤ found.place.offset
      ∧ (objectCall (first :: name)).BeginsAt text found.place.offset (closingOffset text o)
      ∧ ∀ m close, n ≤ m → (objectCall (first :: name)).BeginsAt text m close →
          found.place.offset ≤ m := by
  obtain ⟨o, ho, -, hstart, -⟩ := exists_opener_of_firstInCode? hfirst hname hn h
  have hstart' := hstart
  rw [hseen] at hstart'
  obtain ⟨hcode, hle⟩ := List.mem_filter.mp hstart'
  refine ⟨o, ho, of_decide_eq_true hle, ⟨⟨first, hcode⟩, closeAt?_of_firstInCode? h ho⟩, ?_⟩
  intro m close hm hbegins
  obtain ⟨same, hsame, hfirst⟩ := exists_firstInCode?_of_beginsAt hseen hm hbegins
  rw [h] at hsame
  rwa [Option.some.inj hsame]

/-- The search from an offset enumerates the blocks behind it, if the scan from there sees the rest of
what the scan of the whole text sees. -/
theorem enumerates_blockSpansFrom (hfirst : isSettling first = true)
    (hname : ∀ c ∈ name, isPlain c = true) (place : Cursor) :
    ∀ n, place = Cursor.ofOffset text n → n ≤ text.length →
      text.seen n = (text.seen 0).filter (fun (position, _) => decide (n ≤ position)) →
      (∀ span ∈ (objectCall (first :: name)).blockSpansFrom place,
        ∀ close ∈ (objectCall (first :: name)).closeAt? text span.1,
          close = text.length ∨ text[close]? = some '}') →
      (objectCall (first :: name)).Enumerates text n
        ((objectCall (first :: name)).blockSpansFrom place) := by
  fun_induction blockSpansFrom (objectCall (first :: name)) place with
  | case1 place hnone =>
    rintro n rfl hn hseen -
    refine .nil ?_
    intro m close hm hbegins
    obtain ⟨found, hfound, -⟩ := exists_firstInCode?_of_beginsAt hseen hm hbegins
    rw [hnone] at hfound
    cases hfound
  | case2 place found hfound hopen =>
    rintro n rfl hn hseen -
    obtain ⟨o, ho, hle, hbegins, hleft⟩ := begins_of_firstInCode? hfirst hname hn hseen hfound
    have hclosing : closingOffset text o = text.length := by rw [closingOffset, ← ho, hopen]
    have hlt := hbegins.lt_length
    have hend : found.place.offset + found.place.rest.length = text.length := by
      obtain ⟨_, _, _, _, hplace, -⟩ := exists_split_of_firstInCode? hfound
      rw [hplace, Cursor.rest_ofOffset, ← hplace, List.length_drop]
      omega
    rw [hend]
    -- Nothing begins behind the end of the text.
    refine .cons hle hlt hbegins (by omega) hleft (.nil ?_)
    intro m close hm hbehind
    exact absurd hbehind.lt_length (Nat.not_lt.mpr hm)
  | case3 place found hfound close hclose ih =>
    rintro n rfl hn hseen hbraces
    obtain ⟨o, ho, hle, hbegins, hleft⟩ :=
      begins_of_firstInCode? hfirst hname hn hseen hfound
    obtain ⟨-, hinside, hlt, hnext⟩ := offsets_of_block hfound hclose
    obtain ⟨hbrace, hbraces⟩ := List.forall_mem_cons.mp hbraces
    have hclosing : closingOffset text o = close.offset := by rw [closingOffset, ← ho, hclose]
    rw [hclosing] at hbegins
    have hbrace := (hbrace close.offset hbegins.closes).resolve_left (Nat.ne_of_lt hlt)
    have hseen' : text.seen (close.offset + 1)
        = (text.seen 0).filter fun (position, _) => decide (close.offset + 1 ≤ position) := by
      rw [seen_behind_block hfirst hname hn hfound hclose hbrace, hseen, List.filter_filter]
      refine List.filter_congr fun item _ => ?_
      by_cases hitem : close.offset + 1 ≤ item.1
      · have : n ≤ item.1 := by omega
        simp [hitem, this]
      · simp [hitem]
    have hrest := ih _ hnext hlt hseen' hbraces
    exact .cons hle (by omega) hbegins (by omega) hleft hrest

end

end Pattern

/-! ### The blocks of a text -/

/-- **The blocks of a text are told from one scan of it.**  If the blocks end in braces or with the
text, they are the slices from the places where a scan of the whole text reads the beginning of a
declaration that no earlier block covers, through the brace that closes it.  They stand one behind
the other, and every declaration that begins in code begins in one of them. -/
theorem blocks_told {text : Text}
    (hbraces : ∀ span ∈ fieldPattern.blockSpans text, ∀ close ∈ fieldPattern.closeAt? text span.1,
      close = text.length ∨ text[close]? = some '}') :
    fieldPattern.blocks text
        = (fieldPattern.blockSpans text).map (fun span => text.slice span.1 span.2)
      ∧ (fieldPattern.blockSpans text).Pairwise
          (fun earlier later => earlier.1 < later.1 ∧ earlier.2 ≤ later.1)
      ∧ (∀ span, span ∈ fieldPattern.blockSpans text
          ↔ (∃ close, fieldPattern.BeginsAt text span.1 close
              ∧ span.2 = min (close + 1) text.length)
            ∧ ∀ earlier ∈ fieldPattern.blockSpans text, earlier.1 < span.1 → earlier.2 ≤ span.1)
      ∧ ∀ m close, fieldPattern.BeginsAt text m close →
          ∃ span ∈ fieldPattern.blockSpans text, span.1 ≤ m ∧ m < span.2 := by
  have hname : ∀ c ∈ "efineField".toList, isPlain c = true := List.all_eq_true.mp (by decide)
  have hwhole : text.seen 0 = (text.seen 0).filter fun (position, _) => decide (0 ≤ position) := by
    simp
  have henumerates : fieldPattern.Enumerates text 0 (fieldPattern.blockSpans text) :=
    Pattern.enumerates_blockSpansFrom (by decide) hname _ 0 rfl (Nat.zero_le _) hwhole hbraces
  refine ⟨Pattern.blocks_eq_slices _ text, henumerates.ordered, fun span => henumerates.mem_iff, ?_⟩
  intro m close hbegins
  exact henumerates.complete m close (Nat.zero_le m) hbegins

def twoBlocks : Text :=
  "defineField({a}) // defineField(".toList ++ '{' :: "\ndefineField(".toList ++ ['{', 'b']

theorem blocks_told_twoBlocks :
    (∀ span ∈ fieldPattern.blockSpans twoBlocks,
      ∀ close ∈ fieldPattern.closeAt? twoBlocks span.1,
        close = twoBlocks.length ∨ twoBlocks[close]? = some '}')
    ∧ fieldPattern.blocks twoBlocks
        = ["defineField({a}".toList, "defineField(".toList ++ ['{', 'b']] := by
  have hspans : fieldPattern.blockSpans twoBlocks = [(0, 15), (34, 48)] := by decide +kernel
  have hbraces : ∀ span ∈ fieldPattern.blockSpans twoBlocks,
      ∀ close ∈ fieldPattern.closeAt? twoBlocks span.1,
        close = twoBlocks.length ∨ twoBlocks[close]? = some '}' := by
    rw [hspans]
    decide +kernel
  refine ⟨hbraces, ?_⟩
  rw [(blocks_told hbraces).1, hspans]
  rfl

end GroqSnippets
