/-
Blocks are stretches of a row.

A block begins with the text of its call and reaches through the bracket that closes its object.  So
its row is that of the call, a brace, and what the brace holds, whatever stood before the block in
the source.  Behind the block the search goes on, and there the row of the source goes on as well.
The objects of a list are such stretches too, with nothing before their brace.
-/
import GroqSnippets.Proofs.Source.Finding

namespace GroqSnippets

/-! ### The next block -/

section

variable {pattern : Pattern} {place : Cursor}

theorem Pattern.firstInCode?_of_nil (pattern : Pattern) (h : place.rest = []) :
    pattern.firstInCode? place = none := by
  rw [firstInCode?_eq_placed, h, lexemes_nil]
  rfl

/-- A block ends with the bracket that closes its object, and the search goes on behind it.  A block
that nothing closes ends with the text, and behind it there is nothing to find. -/
theorem exists_block {mark : Mark} {found : Match} {tail : List Lexeme} {run : Text}
    (hseeks : pattern.Seeks mark) (hfound : pattern.firstInCode? place = some found)
    (hat : FoundAt pattern place (lexemes none place.rest) tail found)
    (htext : found.text = run ++ ['{']) (hplain : ∀ c ∈ run ++ ['{'], isPlain c = true) :
    ∃ after next, tail = run.map .code ++ .code '{' :: after
      ∧ lexemes none (run ++ rowText (.code '{' :: through 1 after))
        = run.map .code ++ .code '{' :: through 1 after
      ∧ found.place.rest
        = (run ++ rowText (.code '{' :: through 1 after)) ++ rowText (beyond 1 after)
      ∧ next = found.place.skip (run ++ rowText (.code '{' :: through 1 after)).length
      ∧ pattern.blocksFrom place
        = (run ++ rowText (.code '{' :: through 1 after)) :: pattern.blocksFrom next
      ∧ pattern.blockSpansFrom place
        = (found.place.offset, next.offset) :: pattern.blockSpansFrom next := by
  have hopener : isOpener '{' = true := by decide
  obtain ⟨after, htail, hafter⟩ := exists_bracket hseeks hat htext hplain hopener
  have hbracket : found.bracket.rest
      = rowText (.code '{' :: through 1 after) ++ rowText (beyond 1 after) := by
    rw [← rowText_append, List.cons_append, through_append_beyond, ← hafter, rowText_lexemes]
  have hread := length_rowText_code '{' (through 1 after)
  have hskip : found.bracket = found.place.skip run.length := by
    rw [Match.bracket, htext, List.length_append, List.length_singleton, Nat.add_sub_cancel]
  have hwhole : found.place.rest
      = (run ++ rowText (.code '{' :: through 1 after)) ++ rowText (beyond 1 after) := by
    rw [hat.rest (rowText_lexemes none place.rest).symm, htail, rowText_append, rowText_map_code,
      List.append_assoc, ← hbracket, ← hafter,
      rowText_lexemes]
  have hnext : found.bracket.skip (1 + (rowText (through 1 after)).length)
      = found.place.skip (run ++ rowText (.code '{' :: through 1 after)).length := by
    rw [hskip, Cursor.skip_skip, List.length_append, hread]
  refine ⟨after, _, htail, ?_, hwhole, rfl, ?_⟩
  · have hreads := Reads.of_text none found.bracket.rest
    rw [hafter, ← through_append_beyond 1 after, ← List.cons_append] at hreads
    have hbrace : isSettling '{' = true := by decide
    have hfresh := lexemes_of_isSettling hbrace (lastAfterRow none (run.map .code)) none
      (rowText (through 1 after))
    rw [lexemes_append_of_isPlain (List.forall_mem_append.mp hplain).1]
    exact congrArg _ (hfresh.trans (hreads.left.of_isSettling hbrace))
  · have hclosing := closing?_eq_placed found.bracket
    rw [hafter] at hclosing
    rw [← hnext]
    rcases closing_cases hopener found.bracket after with
      ⟨hnone, -, hthrough, hbeyond⟩ | ⟨close, hclose, hclosed, hstop, hlonger⟩
    · have hend : (found.bracket.skip (1 + (rowText (through 1 after)).length)).rest = [] := by
        rw [Cursor.rest_skip, hbracket, ← hread, List.drop_left, hbeyond, rowText_nil]
      have hover := Pattern.firstInCode?_of_nil pattern hend
      rw [hnone] at hclosing
      rw [Pattern.blocksFrom_of_open hfound hclosing, Pattern.blocksFrom_of_none hover,
        Pattern.blockSpansFrom_of_open hfound hclosing, Pattern.blockSpansFrom_of_none hover, hnext,
        Cursor.offset_skip, hwhole, hbeyond]
      simp
    · have hoffset : close.offset + 1
          = (found.bracket.skip (1 + (rowText (through 1 after)).length)).offset := by
        rw [hclosed, Cursor.offset_skip, Cursor.offset_skip, hbracket, List.length_append, hread]
        omega
      rw [hclose] at hclosing
      rw [Pattern.blocksFrom_of_closed hfound hclosing,
        Pattern.blockSpansFrom_of_closed hfound hclosing, hstop, hoffset, hnext, upTo_skip hwhole]
      exact ⟨rfl, rfl⟩

end

/-! ### The blocks of a call

The name of a call has no brace, so the first brace of a block is the one that ends the match.
-/

/-- What is asked of the name of a call: plain characters without brackets. -/
def IsCallName (function : Text) : Prop :=
  ∀ c ∈ function, isPlain c = true ∧ isOpener c = false ∧ isCloser c = false

instance (function : Text) : Decidable (IsCallName function) :=
  List.decidableBAll (fun c => isPlain c = true ∧ isOpener c = false ∧ isCloser c = false) function

/-- The text before the object of a call. -/
theorem run_facts {function gap : Text} (hfunction : IsCallName function)
    (hgap : ∀ c ∈ gap, isBlank c = true) :
    (∀ c ∈ (function ++ '(' :: gap) ++ ['{'], isPlain c = true) ∧ '{' ∉ function ++ '(' :: gap
      ∧ ∀ c ∈ function ++ '(' :: gap, isCloser c = false := by
  have hplain : ∀ c ∈ function, isPlain c = true := fun c hc => (hfunction c hc).1
  refine ⟨isPlain_of_mem_shape '(' '{' hplain (by decide) hgap (by decide), ?_, ?_⟩
  · intro hmem
    simp only [List.mem_append, List.mem_cons] at hmem
    rcases hmem with hmem | hmem | hmem
    · have := (hfunction '{' hmem).2.1
      cases this
    · cases hmem
    · have hblank := hgap '{' hmem
      rw [Pattern.not_isBlank_of_isOpener (by decide)] at hblank
      cases hblank
  · intro c hmem
    simp only [List.mem_append, List.mem_cons] at hmem
    rcases hmem with hmem | rfl | hmem
    · exact (hfunction c hmem).2.2
    · decide
    · exact Pattern.not_isCloser_of_isBlank (hgap c hmem)

/-- Whether a text is plain up to its first brace. -/
def IsBlock (block : Text) : Prop :=
  ∃ run row, '{' ∉ run ∧ block = run ++ rowText (.code '{' :: row)
    ∧ lexemes none block = run.map .code ++ .code '{' :: row

/-- The next block of a call is a stretch of the text, plain up to its object, and the search goes on
behind it. -/
theorem Pattern.blocksFrom_cases {function : Text} (hfunction : IsCallName function)
    (place : Cursor) :
    (objectCall function).blocksFrom place = []
    ∨ ∃ front block next, place.rest = front ++ (block ++ next.rest) ∧ IsBlock block ∧ block ≠ []
        ∧ (objectCall function).blocksFrom place = block :: (objectCall function).blocksFrom next := by
  cases hfound : (objectCall function).firstInCode? place with
  | none => exact .inl (blocksFrom_of_none hfound)
  | some found =>
    obtain ⟨before, c, after, hrow, hmatch, -⟩ := firstInCode?_eq_some_iff.mp hfound
    have hplace := place_of_match? hmatch
    have hat : FoundAt (objectCall function) place (lexemes none place.rest) (.code c :: after)
        found := ⟨before, hrow, hplace, hplace ▸ hmatch⟩
    obtain ⟨gap, more, -, hgap, hshape⟩ := match?_objectCall.mp (hplace ▸ hmatch)
    obtain ⟨hplain, hbrace, -⟩ := run_facts hfunction hgap
    have hspelled : found.text = (function ++ '(' :: gap) ++ ['{'] := by
      rw [hshape]
      simp
    obtain ⟨inner, next, -, hread, hrest, hnext, hblocks, -⟩ :=
      exists_block (seeks_objectCall function) hfound hat hspelled hplain
    have hnextRest : next.rest = rowText (beyond 1 inner) := by
      rw [hnext, Cursor.rest_skip, hrest, List.drop_left]
    have hfoundRest : found.place.rest = place.rest.drop (rowText before).length := by
      rw [hplace, Cursor.rest_skip]
    refine .inr ⟨place.rest.take (rowText before).length, _, next, ?_,
      ⟨_, through 1 inner, hbrace, rfl, hread⟩, by simp, hblocks⟩
    rw [hnextRest, ← hrest, hfoundRest, List.take_append_drop]

/-- Every block of a call is a stretch of the text, plain up to its object. -/
theorem Pattern.isBlock_of_mem_blocksFrom {function block : Text} (hfunction : IsCallName function)
    {place : Cursor} (h : block ∈ (objectCall function).blocksFrom place) :
    IsBlock block ∧ block <:+: place.rest := by
  induction hlength : place.rest.length using Nat.strong_induction_on generalizing place with
  | _ length ih =>
    rcases Pattern.blocksFrom_cases hfunction place with
      hnone | ⟨front, first, next, hrest, hfirst, hne, hblocks⟩
    · rw [hnone] at h
      cases h
    · rw [hblocks] at h
      rcases List.mem_cons.mp h with rfl | h
      · exact ⟨hfirst, front, next.rest, by rw [hrest, List.append_assoc]⟩
      · have hpos := List.length_pos_iff.mpr hne
        have hshorter : next.rest.length < length := by
          rw [← hlength, hrest, List.length_append, List.length_append]
          omega
        obtain ⟨hblock, hinfix⟩ := ih _ hshorter h rfl
        have hbehind : next.rest <:+ place.rest := by
          rw [hrest, ← List.append_assoc]
          exact List.suffix_append _ _
        exact ⟨hblock, hinfix.trans hbehind.isInfix⟩

/-! ### Objects -/

/-- An object of a row begins with a brace, and is read alone as it is read there. -/
theorem exists_of_mem_objectRows {depth : Nat} {row object : List Lexeme} (hreads : Reads row)
    (h : object ∈ objectRows depth row) : ∃ inner, object = .code '{' :: inner ∧ Reads object := by
  fun_induction objectRows depth row with
  | case1 => cases h
  | case2 row ih =>
    have hcut : .code '{' :: row = (.code '{' :: through 1 row) ++ beyond 1 row := by
      rw [List.cons_append, through_append_beyond]
    rw [hcut] at hreads
    rcases List.mem_cons.mp h with rfl | h
    · exact ⟨_, rfl, hreads.left⟩
    · exact ih hreads.right h
  | case3 depth row hdepth ih => exact ih (hreads.right (a := [_])) h
  | case4 depth row ih | case5 depth row ih | case6 depth row ih =>
    exact ih (hreads.right (a := [_])) h
  | case7 depth lexeme row hbrace hlist hclose hend ih => exact ih (hreads.right (a := [_])) h

theorem isBlock_of_mem_objects {text object : Text} (h : object ∈ objects text) : IsBlock object := by
  rw [objects_eq] at h
  obtain ⟨row, hrow, rfl⟩ := List.mem_map.mp h
  obtain ⟨inner, rfl, hreads⟩ := exists_of_mem_objectRows (Reads.of_text none text) hrow
  exact ⟨[], inner, List.not_mem_nil, rfl, hreads.of_isSettling (by decide)⟩

end GroqSnippets
