/-
What stands directly in a block, told by the scan of the text around it.

The direct text of a block is found in two steps: a search for a brace, whatever it stands in, and a
new scan of the block from there on, which counts brackets and forgets all that stands before the
brace.  The text that the block is cut out of tells the same.  Up to its first brace a block is plain
text, so the brace that the search finds is one that the scan of the text reads as code; and from a
brace on, a new scan sees what the old one sees.

Then the depth of the new scan at a lexeme is the number of brackets that open from the brace up to
the lexeme, less the number of those that close.  This is carried along the row that the brace holds:
before the partner of the brace the depth stays positive, so nothing ends the count too early.
-/
import GroqSnippets.Proofs.Schema.Reading
import GroqSnippets.Proofs.Source.BlockRow
import GroqSnippets.Proofs.Source.Partner

namespace GroqSnippets

namespace Text

/-- Whether the first brace from an offset on is a character of code for the scan that starts there. -/
structure FirstBrace (text : Text) (m o : Nat) : Prop where
  inCode : (o, .code '{') ∈ text.seen m
  first : '{' ∉ text.slice m o

/-- Whether a token is no bracket, and up to it one bracket more has opened than closed, as the scan
from an offset reads the text from a brace on. -/
def standsDirectly (text : Text) (m o : Nat) : Nat × Lexeme → Bool
  | (p, lexeme) => lexeme.bracket?.isNone
      && decide ((text.brackets m o p).countP isOpener = (text.brackets m o p).countP isCloser + 1)

/-- The lexemes that the scan from an offset sees directly between a brace and its partner. -/
def directRow (text : Text) (m o : Nat) : List Lexeme :=
  ((within (o + 1) (closingOffset text o) (text.seen m)).filter (text.standsDirectly m o)).map (·.2)

end Text

/-! ### The depth along a row -/

/-- A row that stays open spells its lexemes at depth one, but for brackets and comments. -/
theorem directOf_append {depth : Nat} {row ending : List Lexeme} (hdepth : 1 ≤ depth)
    (hopen : StaysOpen depth row) (hending : directOf (depthThrough depth row).toNat ending = [])
    {offset : Nat} {keep : Nat × Lexeme → Bool}
    (hkeep : ∀ front lexeme back, row = front ++ lexeme :: back →
      keep (offset + (rowText front).length, lexeme)
        = (lexeme.bracket?.isNone && decide (depthThrough depth front = 1))) :
    directOf depth (row ++ ending)
      = rowText ((((located offset row).filter fun (_, lexeme) => !lexeme.isComment).filter
          keep).map (·.2)) := by
  induction row generalizing depth offset with
  | nil => exact hending
  | cons lexeme row ih =>
    have hhere : keep (offset, lexeme)
        = (lexeme.bracket?.isNone && decide ((depth : Int) = 1)) := hkeep [] lexeme row rfl
    have hpositive := one_le_depthAfter hopen.1 (by omega)
    obtain ⟨next, hnext⟩ := Int.eq_ofNat_of_zero_le (Int.le_trans (by decide) hpositive)
    rw [depthThrough_cons, hnext] at hending
    have hthere : ∀ front other back, row = front ++ other :: back →
        keep (offset + lexeme.text.length + (rowText front).length, other)
          = (other.bracket?.isNone && decide (depthThrough next front = 1)) := by
      intro front other back hsplit
      have hwhole := hkeep (lexeme :: front) other back (by rw [hsplit, List.cons_append])
      rwa [depthThrough_cons, hnext, rowText_cons, List.length_append, ← Nat.add_assoc] at hwhole
    have hmore := ih (by omega) (hnext ▸ hopen.2) hending hthere
    rw [List.cons_append, directOf_cons hdepth hopen.1, hnext, Int.toNat_natCast, hmore, located,
      ← hhere]
    cases hcomment : lexeme.isComment with
    | true =>
      rw [List.filter_cons_of_neg (by simp [hcomment])]
      rfl
    | false =>
      rw [List.filter_cons_of_pos (by simp [hcomment])]
      cases hkept : keep (offset, lexeme) with
      | true =>
        rw [List.filter_cons_of_pos hkept]
        rfl
      | false =>
        rw [List.filter_cons_of_neg (by simp [hkept])]
        rfl

/-! ### From the brace to its partner -/

section

variable {text : Text} {m o : Nat}

theorem le_of_mem_seen {start p : Nat} {lexeme : Lexeme} (h : (p, lexeme) ∈ text.seen start) :
    start ≤ p := by
  obtain ⟨before, -, -, rfl⟩ := exists_split_of_mem_seen h
  exact Nat.le_add_right _ _

theorem slice_append (text : Text) {lo mid hi : Nat} (hlo : lo ≤ mid) (hhi : mid ≤ hi) :
    text.slice lo hi = text.slice lo mid ++ text.slice mid hi := by
  obtain ⟨a, rfl⟩ := Nat.exists_eq_add_of_le hlo
  obtain ⟨b, rfl⟩ := Nat.exists_eq_add_of_le hhi
  rw [Text.slice, Text.slice, Text.slice, Nat.add_assoc, Nat.add_sub_cancel_left,
    Nat.add_sub_cancel_left, ← Nat.add_assoc, Nat.add_sub_cancel_left, List.take_add,
    List.drop_drop]

/-- The block from a brace through its partner, or to the end, in the row that begins at the brace. -/
theorem exists_braced (h : (o, .code '{') ∈ text.seen m) :
    ∃ inner closing more, lexemes none (text.drop o) = .code '{' :: (inner ++ closing ++ more)
      ∧ closingOffset text o = o + (rowText (.code '{' :: inner)).length ∧ StaysOpen 1 inner
      ∧ directOf (depthThrough 1 inner).toNat closing = []
      ∧ text.slice o (closingOffset text o + 1) = rowText (.code '{' :: (inner ++ closing)) := by
  obtain ⟨inner, closing, more, hrow, hclosing, hopen, hslice, hending⟩ :=
    exists_slice_bracketed h (by decide)
  refine ⟨inner, closing, more, hrow, hclosing, hopen, ?_, hslice⟩
  rcases hending with ⟨rfl, -⟩ | ⟨closer, rfl, -, hone, hcloser⟩
  · rfl
  · simp [hone, directOf, hcloser, not_isOpener_of_isCloser hcloser]

/-- What stands directly in a block is what the scan of the text around it sees there. -/
theorem directText_of_firstBrace (h : text.FirstBrace m o) :
    directText (text.slice m (closingOffset text o + 1)) = rowText (text.directRow m o) := by
  have hbrace : isOpener '{' = true := by decide
  obtain ⟨inner, closing, more, hrow, hclosing, hopen, hend, hslice⟩ := exists_braced h.inCode
  have hle : m ≤ o := le_of_mem_seen h.inCode
  have ho : o ≤ text.length := Nat.le_of_lt (position_lt_of_mem_seen h.inCode)
  have hreads : Reads (.code '{' :: (inner ++ closing)) := by
    have hall := Reads.of_text none (text.drop o)
    rw [hrow] at hall
    exact hall.left
  -- A new scan from the brace sees the same, and there the depth is a difference of two counts.
  have hseen : within (o + 1) (closingOffset text o) (text.seen m)
      = (located (o + 1) inner).filter fun (_, lexeme) => !lexeme.isComment := by
    have hsplit : lexemes none (text.drop o) = [.code '{'] ++ inner ++ (closing ++ more) := by
      simpa using hrow
    rw [within_seen_from h.inCode hbrace (Nat.le_succ o), hclosing, length_rowText_code,
      ← Nat.add_assoc]
    exact within_seen ho hsplit
  have hdirect : ∀ front lexeme back, inner = front ++ lexeme :: back →
      text.standsDirectly m o (o + 1 + (rowText front).length, lexeme)
        = (lexeme.bracket?.isNone && decide (depthThrough (1 : Nat) front = 1)) := by
    rintro front lexeme back rfl
    have hsplit : lexemes none (text.drop o)
        = (.code '{' :: front) ++ (lexeme :: back ++ closing ++ more) := by simpa using hrow
    have hbrackets := brackets_of_split h.inCode hbrace hsplit
    rw [length_rowText_code, ← Nat.add_assoc] at hbrackets
    have hcount := depthThrough_eq_countP 0 (.code '{' :: front)
    rw [depthThrough_cons, depthAfter_of_isOpener hbrace, ← hbrackets] at hcount
    have hone : ((1 : Nat) : Int) = 0 + 1 := rfl
    rw [Text.standsDirectly, hone, hcount]
    refine congrArg _ (decide_eq_decide.mpr ?_)
    omega
  have hbetween : text.slice m (closingOffset text o + 1)
      = text.slice m o ++ rowText (.code '{' :: (inner ++ closing)) := by
    rw [← hslice]
    exact slice_append text hle (by omega)
  rw [hbetween, directText_eq h.first (hreads.of_isSettling (by decide)),
    directOf_append (Nat.le_refl 1) hopen hend hdirect, Text.directRow, hseen]

/-! ### The first brace of a block

The first brace of a text may stand in a literal, and then it is not the one that the block begins
with.  Behind plain text this cannot be.
-/

theorem mem_slice_of_mem_seen {p hi : Nat} {c : Char} (h : (p, .code c) ∈ text.seen m)
    (hp : p < hi) : c ∈ text.slice m hi := by
  obtain ⟨before, after, hrow, rfl⟩ := exists_split_of_mem_seen h
  have hdrop : text.drop m = rowText before ++ c :: rowText after := by
    rw [← rowText_lexemes none (text.drop m), hrow, rowText_append, rowText_cons]
    rfl
  obtain ⟨k, rfl⟩ := Nat.exists_eq_add_of_lt hp
  have hlength : m + (rowText before).length + k + 1 - m = (rowText before).length + (k + 1) := by
    omega
  rw [Text.slice, hdrop, hlength, List.take_length_add_append, List.take_succ_cons]
  exact List.mem_append_right _ List.mem_cons_self

theorem Text.FirstBrace.unique {o' : Nat} (h : text.FirstBrace m o) (h' : text.FirstBrace m o') :
    o = o' := by
  rcases Nat.lt_trichotomy o o' with hlt | heq | hlt
  · exact absurd (mem_slice_of_mem_seen h.inCode hlt) h'.first
  · exact heq
  · exact absurd (mem_slice_of_mem_seen h'.inCode hlt) h.first

/-- Behind plain text, a brace is a character of code. -/
theorem firstBrace_of_run {run more : Text} (hdrop : text.drop m = run ++ '{' :: more)
    (hplain : ∀ c ∈ run, isPlain c = true) (hbrace : '{' ∉ run) :
    text.FirstBrace m (m + run.length) where
  inCode := by
    have hm : m ≤ text.length := by
      by_contra hlt
      rw [List.drop_eq_nil_of_le (by omega)] at hdrop
      simp at hdrop
    have hrow : ∃ row, lexemes none (text.drop m) = run.map .code ++ .code '{' :: row := by
      rw [hdrop, lexemes_append_of_isPlain hplain, lexemes_cons, Lexeme.first_of_isPlain (by decide)]
      exact ⟨_, rfl⟩
    obtain ⟨row, hrow⟩ := hrow
    rw [seen_eq hm, hrow, located_append, rowText_map_code]
    exact List.mem_filter.mpr ⟨List.mem_append_right _ List.mem_cons_self, rfl⟩
  first := by
    rw [Text.slice, hdrop, Nat.add_sub_cancel_left, List.take_left]
    exact hbrace

namespace Pattern

/-- Where a search for a call ends, the bracket that it ends with is the first brace of the block. -/
theorem firstBrace_of_firstInCode? {function : Text} (hfunction : IsCallName function) {n : Nat}
    {found : Match} (h : (objectCall function).firstInCode? (Cursor.ofOffset text n) = some found) :
    ∃ o, found.bracket = Cursor.ofOffset text o ∧ text.FirstBrace found.place.offset o := by
  obtain ⟨_, _, _, _, hplace, -, -, hmatch, -⟩ := exists_split_of_firstInCode? h
  obtain ⟨gap, more, hrest, hgap, hshape⟩ := match?_objectCall.mp hmatch
  obtain ⟨hplain, hbrace, -⟩ := run_facts hfunction hgap
  have htext : found.text = (function ++ '(' :: gap) ++ ['{'] := by
    rw [hshape]
    simp
  have hdrop : text.drop found.place.offset = (function ++ '(' :: gap) ++ '{' :: more := by
    rw [← Cursor.rest_ofOffset, ← hplace, hrest]
    simp
  refine ⟨_, ?_, firstBrace_of_run hdrop (List.forall_mem_append.mp hplain).1 hbrace⟩
  rw [bracket_eq hplace, htext, List.length_append, List.length_singleton, Nat.add_sub_cancel]

/-- Every block of a call reaches from its first character through the partner of its first brace. -/
theorem firstBrace_of_mem_blockSpansFrom {function : Text} (hfunction : IsCallName function)
    {place : Cursor} {span : Nat × Nat} (h : span ∈ (objectCall function).blockSpansFrom place) :
    ∀ n, place = Cursor.ofOffset text n → n ≤ text.length →
      ∃ o, text.FirstBrace span.1 o
        ∧ text.slice span.1 span.2 = text.slice span.1 (closingOffset text o + 1) := by
  fun_induction blockSpansFrom (objectCall function) place with
  | case1 => cases h
  | case2 place found hfound hopen =>
    rintro n rfl hn
    obtain rfl := List.mem_singleton.mp h
    obtain ⟨_, _, _, _, hplace, -, hlt, -⟩ := exists_split_of_firstInCode? hfound
    obtain ⟨o, hbracket, hbrace⟩ := firstBrace_of_firstInCode? hfunction hfound
    have hstop : found.place.offset + found.place.rest.length = text.length := by
      rw [hplace, Cursor.rest_ofOffset, ← hplace, List.length_drop]
      omega
    have hclosing : closingOffset text o = text.length := by rw [closingOffset, ← hbracket, hopen]
    exact ⟨o, hbrace, by rw [hclosing, slice_beyond, hstop]⟩
  | case3 place found hfound close hclose ih =>
    rintro n rfl hn
    obtain ⟨-, -, hlt, hnext⟩ := offsets_of_block hfound hclose
    rcases List.mem_cons.mp h with rfl | h
    · obtain ⟨o, hbracket, hbrace⟩ := firstBrace_of_firstInCode? hfunction hfound
      have hclosing : closingOffset text o = close.offset := by
        rw [closingOffset, ← hbracket, hclose]
      exact ⟨o, hbrace, by rw [hclosing]⟩
    · exact ih h _ hnext hlt

end Pattern

theorem firstBrace_of_mem_blockSpans {span : Nat × Nat} (h : span ∈ fieldPattern.blockSpans text) :
    ∃ o, text.FirstBrace span.1 o
      ∧ text.slice span.1 span.2 = text.slice span.1 (closingOffset text o + 1) := by
  have hfunction : IsCallName "defineField".toList := by decide
  exact Pattern.firstBrace_of_mem_blockSpansFrom hfunction h 0 rfl (Nat.zero_le _)

theorem firstBrace_of_mem_seen (h : (o, .code '{') ∈ text.seen m) : text.FirstBrace o o := by
  obtain ⟨inner, closing, more, hrow, -⟩ := exists_braced h
  have hdrop : text.drop o = [] ++ '{' :: rowText (inner ++ closing ++ more) := by
    rw [← rowText_lexemes none (text.drop o), hrow]
    simp [Lexeme.text]
  exact firstBrace_of_run hdrop (by simp) List.not_mem_nil

end

/-! ### What is read from a block -/

/-- Names, types and titles are read from what stands directly in a block. -/
theorem declared_congr {block block' : Text} (h : directText block = directText block') :
    declaredName? block = declaredName? block'
      ∧ (declaredField? block).map (fun field => (field.name, field.type, field.title))
        = (declaredField? block').map (fun field => (field.name, field.type, field.title))
      ∧ (declaredNestedField? block).map (fun nested => (nested.name, nested.type))
        = (declaredNestedField? block').map (fun nested => (nested.name, nested.type))
      ∧ (declaredSubField? block).map (fun sub => (sub.name, sub.type))
        = (declaredSubField? block').map (fun sub => (sub.name, sub.type)) := by
  refine ⟨by rw [declaredName?, declaredName?, h], ?_⟩
  unfold declaredField? declaredNestedField? declaredSubField?
  dsimp only
  rw [h]
  cases nameAndType? (directText block') with
  | none => exact ⟨rfl, rfl, rfl⟩
  | some pair => exact ⟨rfl, rfl, rfl⟩

/-- Each block reaches from its first character through the partner of its first brace. -/
theorem exists_firstBrace_of_mem_blocks {text block : Text} (h : block ∈ fieldPattern.blocks text) :
    ∃ m o, text.FirstBrace m o ∧ block = text.slice m (closingOffset text o + 1) := by
  rw [Pattern.blocks_eq_slices] at h
  obtain ⟨span, hspan, rfl⟩ := List.mem_map.mp h
  obtain ⟨o, hbrace, hslice⟩ := firstBrace_of_mem_blockSpans hspan
  exact ⟨span.1, o, hbrace, hslice⟩

/-- **What stands directly in a block or an item is told by the scan of the text around it.**  From the
first character of a block on, that scan reads the first brace of the block as code, and the direct
text of the block spells, in order, the tokens that the scan sees between the brace and its partner at
depth one, but for brackets.  Blocks and items in which these tokens are the same have the same name,
type and title. -/
theorem directText_told (text : Text) :
    (fieldPattern.blocks text
        = (fieldPattern.blockSpans text).map (fun span => text.slice span.1 span.2)
      ∧ ∀ span ∈ fieldPattern.blockSpans text, ∃ o, text.FirstBrace span.1 o
        ∧ text.slice span.1 span.2 = text.slice span.1 (closingOffset text o + 1)
        ∧ directText (text.slice span.1 span.2) = rowText (text.directRow span.1 o))
    ∧ (∀ object ∈ objects text, ∃ o, (o, .code '{') ∈ text.seen 0 ∧ text.FirstBrace o o
        ∧ object = text.slice o (closingOffset text o + 1)
        ∧ directText object = rowText (text.directRow o o))
    ∧ (∀ m o, text.FirstBrace m o →
        directText (text.slice m (closingOffset text o + 1)) = rowText (text.directRow m o))
    ∧ ∀ (m o : Nat) (text' : Text) (m' o' : Nat), text.FirstBrace m o → text'.FirstBrace m' o' →
        text.directRow m o = text'.directRow m' o' →
        let block := text.slice m (closingOffset text o + 1)
        let block' := text'.slice m' (closingOffset text' o' + 1)
        declaredName? block = declaredName? block'
        ∧ (declaredField? block).map (fun field => (field.name, field.type, field.title))
          = (declaredField? block').map (fun field => (field.name, field.type, field.title))
        ∧ (declaredNestedField? block).map (fun nested => (nested.name, nested.type))
          = (declaredNestedField? block').map (fun nested => (nested.name, nested.type))
        ∧ (declaredSubField? block).map (fun sub => (sub.name, sub.type))
          = (declaredSubField? block').map (fun sub => (sub.name, sub.type)) := by
  refine ⟨⟨Pattern.blocks_eq_slices _ text, ?_⟩, ?_, fun m o => directText_of_firstBrace, ?_⟩
  · intro span hspan
    obtain ⟨o, hbrace, hslice⟩ := firstBrace_of_mem_blockSpans hspan
    exact ⟨o, hbrace, hslice, by rw [hslice, directText_of_firstBrace hbrace]⟩
  · intro object hobject
    obtain ⟨o, hseen, rfl⟩ := exists_opener_of_mem_objects hobject
    have hbrace := firstBrace_of_mem_seen hseen
    exact ⟨o, hseen, hbrace, rfl, directText_of_firstBrace hbrace⟩
  · intro m o text' m' o' h h' hsame
    refine declared_congr ?_
    rw [directText_of_firstBrace h, directText_of_firstBrace h', hsame]

-- Brackets, what they hold and comments are left out; literals stay as they are.
example :
    let text := "f(".toList ++ '{' :: "a[b]/*c*/\"".toList ++ '}' :: "\"d".toList ++ ['}', ')']
    Text.directRow text 0 2 = [.code 'a', .quoted ['"', '}', '"'], .code 'd'] := by
  decide +kernel

end GroqSnippets
