/-
A comment line more in a source.

A source has a comment line put in behind one of its line feeds.  Up to the line feed both sources
read the same, and behind it they do as well, if the scan reads the line feed as code both times.
The search for blocks starts a new scan behind every block, and each of them has to.

From there it goes block by block.  A block is the same in both sources but for the comment; behind
it both searches are at the same place before the line feed, or have the same text before them.
-/
import GroqSnippets.Proofs.Source.BlockRow
import GroqSnippets.Proofs.Source.Break

namespace GroqSnippets

/-! ### Blocks -/

section

variable {line : Line} {last : Option Char} {back row other : List Lexeme} {place place' : Cursor}

theorem Remarked.getLast? (h : Remarked line last back row other) :
    (rowText row).getLast? = (rowText other).getLast? := by
  cases h with
  | refl => rfl
  | seam front back hfits => simp [Lexeme.text, List.getLast?_append, List.getLast?_cons]

/-- Two places further on, with the same character before them and rows behind them that differ in
the comment at most. -/
structure Behind (line : Line) (back : List Lexeme) (place place' next next' : Cursor) : Prop where
  reached : ∃ count, next = place.skip count
  reached' : ∃ count, next' = place'.skip count
  before : next.before = next'.before
  shorter : next.rest.length < place.rest.length
  rows : ∃ last row other, next.rest = rowText row ∧ next'.rest = rowText other
    ∧ row.length ≤ (lexemes none place.rest).length ∧ Remarked line last back row other

/-- The next block is the same in both sources but for the comment, and so is what follows it. -/
theorem blocks_step {function : Text} (hfunction : IsCallName function)
    (hmark : Mark.objectCall function ∈ codeMarks)
    (h : Remarked line place.before back (lexemes none place.rest) (lexemes none place'.rest))
    (hbefore : place.before = place'.before) :
    ((Pattern.objectCall function).blocksFrom place = []
      ∧ (Pattern.objectCall function).blocksFrom place' = [])
    ∨ ∃ next next' block block' start, Behind line back place place' next next'
      ∧ Noted line block block'
      ∧ (Pattern.objectCall function).blocksFrom place
        = block :: (Pattern.objectCall function).blocksFrom next
      ∧ (Pattern.objectCall function).blocksFrom place'
        = block' :: (Pattern.objectCall function).blocksFrom next'
      ∧ (Pattern.objectCall function).blockSpansFrom place
        = (start, next.offset) :: (Pattern.objectCall function).blockSpansFrom next := by
  have hseeks := Pattern.seeks_objectCall function
  have hsearch := firstInCode?_remarked hmark hseeks h hbefore
  generalize hfound : (Pattern.objectCall function).firstInCode? place = search at hsearch
  generalize hfound' : (Pattern.objectCall function).firstInCode? place' = search' at hsearch
  cases hsearch with
  | none => exact Or.inl ⟨Pattern.blocksFrom_of_none hfound, Pattern.blocksFrom_of_none hfound'⟩
  | @some found found' halike =>
    obtain ⟨htext, last, tail, tail', htail, hat, hat'⟩ := halike
    obtain ⟨front, hfront, hplace, hmatch⟩ := id hat
    obtain ⟨front', hfront', hplace', hmatch'⟩ := id hat'
    obtain ⟨gap, more, -, hgap, hshape⟩ := Pattern.match?_objectCall.mp hmatch
    obtain ⟨hplain, hbrace, -⟩ := run_facts hfunction hgap
    generalize hrun : function ++ '(' :: gap = run at hplain hbrace
    have hspelled : found.text = run ++ ['{'] := by
      rw [hshape, ← hrun]
      simp
    have hopener : isOpener '{' = true := by decide
    obtain ⟨after, next, rfl, hread, hrest, hnext, hblocks, hspans⟩ :=
      exists_block hseeks hfound hat hspelled hplain
    obtain ⟨after', next', rfl, hread', hrest', hnext', hblocks', -⟩ :=
      exists_block hseeks hfound' hat' (htext.trans hspelled) hplain
    obtain ⟨back', hblock⟩ := htail.braced none
    obtain ⟨-, -, hbeyond⟩ := (htail.of_run hopener).cut
    refine Or.inr ⟨next, next', _, _, _, ?_, noted_of_run _ hbrace hread hread' hblock, hblocks,
      hblocks', hspans⟩
    have hnextRest : next.rest = rowText (beyond 1 after) := by
      rw [hnext, Cursor.rest_skip, hrest, List.drop_left]
    have hnextRest' : next'.rest = rowText (beyond 1 after') := by
      rw [hnext', Cursor.rest_skip, hrest', List.drop_left]
    constructor
    · exact ⟨_, by rw [hnext, hplace, Cursor.skip_skip]⟩
    · exact ⟨_, by rw [hnext', hplace', Cursor.skip_skip]⟩
    · have hlast := hblock.getLast?
      rw [← hread, ← hread', rowText_lexemes, rowText_lexemes] at hlast
      rw [hnext, hnext', before_skip_of_ne_nil (by simp [Lexeme.text]) hrest,
        before_skip_of_ne_nil (by simp [Lexeme.text]) hrest', hlast]
    · have hshort := (Pattern.rest_of_firstInCode? hfound).2
      have hlength := congrArg List.length hrest
      simp only [List.length_append, rowText_cons, Lexeme.text, List.length_singleton] at hlength
      rw [hnextRest]
      omega
    · have hshort := length_beyond_le 1 after
      have hlength := congrArg List.length hfront
      simp only [List.length_append, List.length_cons] at hlength
      exact ⟨_, _, _, hnextRest, hnextRest', by omega, hbeyond⟩

end

/-! ### A comment line

The line is put behind a line feed.  It is a comment because the slashes begin it there, and it ends
with a line feed of its own, so what follows is read with the memory from before.
-/

/-- A text with a comment on a line of its own behind the line feed between two parts. -/
def withComment (before comment after : Text) : Text :=
  before ++ '\n' :: ('/' :: '/' :: (comment ++ '\n' :: after))

section

variable {before comment after : Text} {start : Nat}

theorem ofSlash_line (last : Option Char) (hcomment : '\n' ∉ comment) (more : Text) :
    Lexeme.ofSlash last ('/' :: (comment ++ '\n' :: more)) = .comment ('/' :: '/' :: comment) := by
  rw [Lexeme.ofSlash, takeWhile_bne hcomment (by simp)]

theorem lexemes_break (last : Option Char) (more : Text) :
    lexemes last ('\n' :: more) = .code '\n' :: lexemes last more := by
  rw [lexemes_cons, Lexeme.first_of_isPlain (by decide)]
  rfl

theorem lexemes_commentLine (last : Option Char) (hcomment : '\n' ∉ comment) (more : Text) :
    lexemes last ('/' :: '/' :: (comment ++ '\n' :: more))
      = .comment ('/' :: '/' :: comment) :: .code '\n' :: lexemes last more := by
  have hfirst : Lexeme.first last '/' ('/' :: (comment ++ '\n' :: more))
      = .comment ('/' :: '/' :: comment) := by
    rw [Lexeme.first, if_neg (by decide), if_pos rfl, ofSlash_line last hcomment]
  have hdrop : ('/' :: '/' :: (comment ++ '\n' :: more)).drop
      (Lexeme.comment ('/' :: '/' :: comment)).text.length = '\n' :: more := by
    simp [Lexeme.text]
  rw [lexemes_cons, hfirst, hdrop, Lexeme.lastAfter, lexemes_break]

/-- The text between the quotes around the line feed between two texts, on the level of the line feed,
as a scan from an offset reads them. -/
def textOver (before after : Text) (start : Nat) : Text :=
  let front := lexemes none (before.drop start)
  betweenQuotes (levelBefore 1 front.reverse)
    (directOf 1 (lexemes (lastAfterRow none front) after))

/-- Whether a scan from an offset reads the line feed between two texts as code, with a comment line
behind it and without, sees no mark split there, and reads no other texts over it than are known. -/
structure Line.Seen (line : Line) (before after : Text) (start : Nat) : Prop where
  inCode : (before.length, .code '\n') ∈ (before ++ '\n' :: after).seen start
  inCode' : (before.length, .code '\n') ∈ (withComment before line.note after).seen start
  splits : ¬ SplitsMark before after start
  across : textOver before after start ∈ line.across
  across' : textOver before ('\n' :: after) start ∈ line.across

/-- A mark that is split in the row of a scan is one that the scan sees. -/
theorem splitsMark_of_row (hstart : start ≤ before.length)
    (hseen : (before.length, .code '\n') ∈ (before ++ '\n' :: after).seen start)
    (h : RowSplitsMark (before.take start).getLast? (lexemes none (before.drop start)) after) :
    SplitsMark before after start := by
  obtain ⟨mark, hmark, row, run, hrow, hruns, hadmits⟩ := h
  have hspelled : before.drop start = rowText row ++ run := by
    rw [← rowText_lexemes none (before.drop start), hrow, rowText_append, rowText_map_code]
  have hdrop : before.drop (start + (rowText row).length) = run := by
    rw [← List.drop_drop, hspelled, List.drop_left]
  have htake : before.take (start + (rowText row).length) = before.take start ++ rowText row := by
    rw [List.take_add, hspelled, List.take_left]
  obtain ⟨c, more, hc⟩ : ∃ c more, run = c :: more := by
    obtain ⟨-, -, gap, -, -, rfl, -⟩ := hruns
    obtain ⟨hne, -⟩ := opening_facts mark hmark
    exact List.exists_cons_of_ne_nil (List.append_ne_nil_of_left_ne_nil hne gap)
  refine ⟨start + (rowText row).length, c, ?_, mark, hmark, hdrop.symm ▸ hruns, ?_⟩
  · rw [seen_eq (by rw [List.length_append]; omega), lexemes_at_break hstart hseen, hrow, hc,
      List.append_assoc, located_append]
    exact List.mem_filter.mpr ⟨List.mem_append_right _ List.mem_cons_self, rfl⟩
  · rwa [htake, List.getLast?_append]

/-- Where the line feed is read as code with the comment line and without it, the rows differ in the
comment. -/
theorem exists_remarked {line : Line} (hnote : '\n' ∉ line.note) (hstart : start ≤ before.length)
    (h : line.Seen before after start) :
    ∃ back, rowText back = after
      ∧ Remarked line (Cursor.ofOffset (before ++ '\n' :: after) start).before back
        (lexemes none ((before ++ '\n' :: after).drop start))
        (lexemes none ((withComment before line.note after).drop start)) := by
  obtain ⟨hseen, hseen', hsplits, hover, hover'⟩ := h
  have hlines :=
    lexemes_commentLine (lastAfterRow none (lexemes none (before.drop start))) hnote after
  have hbreak := lexemes_break (lastAfterRow none (lexemes none (before.drop start))) after
  rw [withComment] at hseen' ⊢
  rw [lexemes_at_break hstart hseen, lexemes_at_break hstart hseen', hlines, Cursor.before_ofOffset,
    List.take_append_of_le_length hstart]
  refine ⟨_, rowText_lexemes _ after, .seam _ _ ⟨?_, ?_⟩⟩
  · rw [rowText_lexemes]
    exact fun hless => hsplits (splitsMark_of_row hstart hseen hless)
  · refine ⟨_, List.suffix_rfl, hover, ?_⟩
    rw [textOver, hbreak] at hover'
    exact hover'

/-- A place in the source and the same place with the comment line: with the same text behind them,
or before the line feed. -/
inductive Abreast (before comment after : Text) : Cursor → Cursor → Prop where
  | same {place place' : Cursor} (h : place.rest = place'.rest) :
      Abreast before comment after place place'
  | before {n : Nat} (hn : n ≤ before.length) :
      Abreast before comment after (.ofOffset (before ++ '\n' :: after) n)
        (.ofOffset (withComment before comment after) n)

theorem Abreast.behind {line : Line} {back : List Lexeme} (hback : rowText back = after) {n : Nat}
    {next next' : Cursor}
    (h : Behind line back (.ofOffset (before ++ '\n' :: after) n)
      (.ofOffset (withComment before line.note after) n) next next') :
    Abreast before line.note after next next' := by
  obtain ⟨count, hnext⟩ := h.reached
  obtain ⟨count', hnext'⟩ := h.reached'
  obtain ⟨last, row, other, hrow, hother, -, hrows⟩ := h.rows
  rw [Cursor.ofOffset_skip] at hnext hnext'
  cases hrows with
  | refl => exact .same (hrow.trans hother.symm)
  | seam front back hfits =>
    -- Before the comment, both texts have as much left behind the place as the row has there.
    have hlength := congrArg List.length hrow
    have hlength' := congrArg List.length hother
    rw [hnext, Cursor.rest_ofOffset] at hlength
    rw [hnext', Cursor.rest_ofOffset, withComment] at hlength'
    simp only [List.length_drop, List.length_append, List.length_cons, rowText_append, rowText_cons,
      Lexeme.text, hback, List.length_nil] at hlength hlength'
    have hsame : n + count' = n + count := by omega
    rw [hnext, hnext', hsame]
    exact .before (by omega)

/-- The blocks behind two places that are abreast are the same but for the comment, if every search
for a block that starts before the line feed sees the line there. -/
theorem forall₂_blocksFrom {function : Text} (hfunction : IsCallName function)
    (hmark : Mark.objectCall function ∈ codeMarks) {line : Line} (hnote : '\n' ∉ line.note)
    {place place' : Cursor} (habreast : Abreast before line.note after place place')
    (hbefore : place.before = place'.before)
    (hseen : ∀ start ∈ place.offset ::
        ((Pattern.objectCall function).blockSpansFrom place).map (·.2), start ≤ before.length →
      line.Seen before after start) :
    List.Forall₂ (Noted line) ((Pattern.objectCall function).blocksFrom place)
      ((Pattern.objectCall function).blocksFrom place') := by
  induction hlength : place.rest.length using Nat.strong_induction_on generalizing place place' with
  | _ length ih =>
    obtain ⟨back, hrows, hnext⟩ : ∃ back, Remarked line place.before back (lexemes none place.rest)
          (lexemes none place'.rest)
        ∧ ∀ next next', Behind line back place place' next next' →
          Abreast before line.note after next next' := by
      cases habreast with
      | same hsame =>
        -- No row that long is left, so there is no comment more.
        refine ⟨.code '\n' :: lexemes none place.rest, by rw [hsame]; exact .refl _ _, ?_⟩
        intro next next' hbehind
        obtain ⟨last, row, other, hrow, hother, hshort, hrows⟩ := hbehind.rows
        cases hrows with
        | refl => exact .same (hrow.trans hother.symm)
        | seam front back hfits =>
          simp only [List.length_append, List.length_cons] at hshort
          omega
      | @before n hn =>
        have hoffset : (Cursor.ofOffset (before ++ '\n' :: after) n).offset = n := by
          rw [Cursor.offset_ofOffset, List.length_append]
          omega
        have hthere := hseen n (by rw [hoffset]; exact List.mem_cons_self) hn
        obtain ⟨back, hback, hrows⟩ := exists_remarked hnote hn hthere
        rw [Cursor.rest_ofOffset, Cursor.rest_ofOffset]
        exact ⟨back, hrows, fun next next' hbehind => .behind hback hbehind⟩
    rcases blocks_step hfunction hmark hrows hbefore with ⟨hnone, hnone'⟩ |
      ⟨next, next', block, block', start, hbehind, hnoted, hblocks, hblocks', hspans⟩
    · rw [hnone, hnone']
      exact .nil
    · rw [hblocks, hblocks']
      rw [hspans] at hseen
      refine .cons hnoted
        (ih _ (hlength ▸ hbehind.shorter) (hnext _ _ hbehind) hbehind.before ?_ rfl)
      intro other hother
      exact hseen other (List.mem_cons_of_mem _ hother)

theorem forall₂_blocks {function : Text} (hfunction : IsCallName function)
    (hmark : Mark.objectCall function ∈ codeMarks) {line : Line} (hnote : '\n' ∉ line.note)
    (hseen : ∀ start ∈ 0 :: ((Pattern.objectCall function).blockSpans
        (before ++ '\n' :: after)).map (·.2), start ≤ before.length →
      line.Seen before after start) :
    List.Forall₂ (Noted line)
      ((Pattern.objectCall function).blocks (before ++ '\n' :: after))
      ((Pattern.objectCall function).blocks (withComment before line.note after)) :=
  forall₂_blocksFrom hfunction hmark hnote (.before (Nat.zero_le _)) rfl hseen

end

end GroqSnippets
