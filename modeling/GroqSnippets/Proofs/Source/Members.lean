/-
The first list among the members of a list.

The field list of an array is looked for in the whole text of its `of` list.  That text consists of
the members and of what stands between them.  Where no key of such a list stands between members,
looking through the whole text comes to the same as looking into the members, one after the other,
each on its own: the first member with a list of that key provides it.

The reason is that members are closed.  A key that begins in a member ends in it, because it holds no
closing bracket and the member ends with one; and a bracket that opens in a member closes in it,
because the depth would otherwise have to reach zero before it reaches one.
-/
import GroqSnippets.Proofs.Source.Own

namespace GroqSnippets

/-! ### What stands between members

A list may have a key between its objects, or have one in a call.  Where that is the case, the list
of that key need not belong to a member.
-/

/-- The tokens of a row that stand in none of its objects. -/
def outerTokens (depth : Nat) (place : Cursor) (row : List Lexeme) : List Token :=
  match row with
  | [] => []
  | lexeme :: row =>
    match lexeme with
    | .code '{' =>
      if depth = 0 then
        outerTokens 0 (place.skip (rowText (.code '{' :: through 1 row)).length) (beyond 1 row)
      else ⟨place, lexeme⟩ :: outerTokens (depth + 1) (place.skip lexeme.text.length) row
    | .code '[' => ⟨place, lexeme⟩ :: outerTokens (depth + 1) (place.skip lexeme.text.length) row
    | .code '}' | .code ']' =>
      ⟨place, lexeme⟩ :: outerTokens (depth - 1) (place.skip lexeme.text.length) row
    | _ => ⟨place, lexeme⟩ :: outerTokens depth (place.skip lexeme.text.length) row
termination_by row.length
decreasing_by
  · exact Nat.lt_succ_of_le (length_beyond_le 1 row)
  all_goals exact Nat.lt_succ_self _

/-- Whether no occurrence of a pattern begins between the objects of a list. -/
def Pattern.KeepsInside (pattern : Pattern) (text : Text) : Prop :=
  ∀ token ∈ outerTokens 0 (Cursor.ofText text) (lexemes none text), pattern.matchToken? token = none

instance (pattern : Pattern) (text : Text) : Decidable (pattern.KeepsInside text) :=
  decidable_of_iff ((outerTokens 0 (Cursor.ofText text) (lexemes none text)).all fun token =>
      (pattern.matchToken? token).isNone)
    (by simp only [List.all_eq_true, Option.isNone_iff_eq_none, Pattern.KeepsInside])

/-! ### Objects are closed

Whether something begins in an object does not depend on what follows the object, unless it could
reach over the closing brace.
-/

/-- Whether a mark has no closing bracket. -/
def Mark.IsOpen (mark : Mark) : Prop :=
  ∀ c ∈ mark.opening ++ mark.closings.flatten, isCloser c = false

instance (mark : Mark) : Decidable mark.IsOpen :=
  List.decidableBAll (fun c => isCloser c = false) (mark.opening ++ mark.closings.flatten)

theorem Mark.IsOpen.not_isCloser {mark : Mark} (h : mark.IsOpen) {shape text : Text}
    (hheads : mark.Heads shape text) : ∀ c ∈ shape, isCloser c = false := by
  obtain ⟨gap, closing, -, hclosing, hgap, rfl, -⟩ := hheads
  intro c hc
  simp only [List.mem_append] at hc
  rcases hc with hc | hc | hc
  · exact h c (List.mem_append_left _ hc)
  · exact Pattern.not_isCloser_of_isBlank (hgap c hc)
  · exact h c (List.mem_append_right _ (List.mem_flatten_of_mem hclosing hc))

section

variable {row front tail after : List Lexeme} {c : Char}

/-- A bracket that opens within an object holds nothing from behind the object. -/
theorem held_through (hc : isOpener c = true) (hsplit : through 1 row = front ++ .code c :: after) :
    held 1 (after ++ beyond 1 row) = held 1 after := by
  rcases staysOpen_or_split 1 row with hopen | ⟨inner, lexeme, more, rfl, hopen, hclose⟩
  · rw [(cut_of_staysOpen hopen).2.2, List.append_nil]
  · obtain ⟨-, hthrough, hbeyond⟩ := cut_of_split hopen hclose more
    obtain ⟨closer, rfl, hcloser, hdepth⟩ := closesAt_iff.mp hclose
    rw [hthrough] at hsplit
    rw [hbeyond]
    rcases List.eq_nil_or_concat after with rfl | ⟨inside, last, rfl⟩
    · obtain ⟨-, hlast⟩ := List.append_inj' hsplit rfl
      obtain rfl : closer = c := by simpa using hlast
      rw [not_isCloser_of_isOpener hc] at hcloser
      cases hcloser
    · have hconcat : inner ++ [.code closer] = (front ++ .code c :: inside) ++ [last] := by
        simpa using hsplit
      obtain ⟨rfl, -⟩ := List.append_inj' hconcat rfl
      rw [staysOpen_append] at hopen
      have hbefore := one_le_depthThrough hopen.1 (by omega)
      rw [depthThrough_append, depthThrough_cons, depthAfter_of_isOpener hc, Int.add_comm,
        depthThrough_add] at hdepth
      rcases staysOpen_or_split 1 inside with hinside | ⟨u, l, v, rfl, hu, hl⟩
      · -- The depth cannot have come back to one while this bracket is open.
        have hlater := one_le_depthThrough hinside (by omega)
        omega
      · have hcut := (cut_of_split hu hl (v ++ last :: more)).1
        have hcut' := (cut_of_split hu hl (v ++ [last])).1
        simp only [List.append_assoc, List.cons_append, List.concat_eq_append] at hcut hcut' ⊢
        rw [hcut']
        simpa using hcut

/-- A mark without closing brackets that begins in an object ends in it. -/
theorem heads_through {mark : Mark} (hmark : mark.IsOpen) {shape : Text}
    (hsplit : through 1 row = front ++ tail) (htail : tail ≠ []) :
    mark.Heads shape (rowText (tail ++ beyond 1 row)) ↔ mark.Heads shape (rowText tail) := by
  rw [rowText_append]
  constructor
  · intro hheads
    have hshape := hmark.not_isCloser hheads
    rcases staysOpen_or_split 1 row with hopen | ⟨inner, lexeme, more, rfl, hopen, hclose⟩
    · rwa [(cut_of_staysOpen hopen).2.2, rowText_nil, List.append_nil] at hheads
    · obtain ⟨-, hthrough, hbeyond⟩ := cut_of_split hopen hclose more
      obtain ⟨closer, rfl, hcloser, -⟩ := closesAt_iff.mp hclose
      rw [hthrough] at hsplit
      obtain ⟨inside, last, rfl⟩ := (List.eq_nil_or_concat tail).resolve_left htail
      have hconcat : inner ++ [.code closer] = (front ++ inside) ++ [last] := by
        simpa using hsplit
      obtain ⟨-, hlast⟩ := List.append_inj' hconcat rfl
      obtain rfl : last = .code closer := by simpa using hlast.symm
      obtain ⟨gap, closing, rest, hclosing, hgap, hspelled, htext⟩ := hheads
      have hends : shape ++ rest
          = rowText inside ++ closer :: rowText (beyond 1 (inner ++ .code closer :: more)) := by
        rw [← htext]
        simp [Lexeme.text]
      have hnot : closer ∉ shape := by
        intro hmem
        rw [hshape closer hmem] at hcloser
        cases hcloser
      obtain ⟨t, ht, -⟩ := exists_of_append_eq_left hnot hends
      refine ⟨gap, closing, t ++ [closer], hclosing, hgap, hspelled, ?_⟩
      simp [ht, Lexeme.text]
  · intro hheads
    exact hheads.append _

end

/-! ### The search in an object -/

/-- Two searches through the same row, laid out from two places, end alike if they do at each of its
lexemes. -/
theorem findSome?_placed_congr {α : Type} {f g : Token → Option α} {row : List Lexeme}
    {place place' : Cursor}
    (h : ∀ front lexeme tail, row = front ++ lexeme :: tail →
      f ⟨place.skip (rowText front).length, lexeme⟩ = g ⟨place'.skip (rowText front).length, lexeme⟩) :
    (placed place row).findSome? f = (placed place' row).findSome? g := by
  induction row generalizing place place' with
  | nil => rfl
  | cons lexeme row ih =>
    have hhead : f ⟨place, lexeme⟩ = g ⟨place', lexeme⟩ := h [] lexeme row rfl
    rw [placed, placed, List.findSome?_cons, List.findSome?_cons, hhead, ih]
    intro front lexeme' tail hrow
    have hlater := h (lexeme :: front) lexeme' tail (by rw [hrow, List.cons_append])
    rwa [rowText_cons, List.length_append, ← Cursor.skip_skip, ← Cursor.skip_skip] at hlater

section

variable {pattern : Pattern} {mark : Mark} {row : List Lexeme} {place place' : Cursor}

/-- Behind the brace of an object, the same begins at a lexeme whether or not the text goes on behind
the object. -/
theorem match?_through (hseeks : pattern.Seeks mark) (hmark : mark.IsOpen)
    {front tail : List Lexeme} (hsplit : through 1 row = front ++ tail) (htail : tail ≠ [])
    (hbefore : place.before = place'.before) (hplace : place.rest = rowText (tail ++ beyond 1 row))
    (hplace' : place'.rest = rowText tail) :
    pattern.match? place = (pattern.match? place').map fun found => { found with place := place } := by
  obtain ⟨value, hiff⟩ := hseeks
  refine Option.ext fun found => ?_
  rw [hiff, Option.map_eq_some_iff, hplace, heads_through hmark hsplit htail, hbefore]
  constructor
  · rintro ⟨hadmits, hheads, hat, hvalue⟩
    refine ⟨⟨place', found.text, value⟩, (hiff _ _).mpr ⟨hadmits, by rwa [hplace'], rfl, rfl⟩, ?_⟩
    rw [← hvalue, ← hat]
  · rintro ⟨found', hfound', rfl⟩
    obtain ⟨hadmits, hheads, -, hvalue⟩ := (hiff _ _).mp hfound'
    exact ⟨hadmits, by rwa [← hplace'], rfl, hvalue⟩

theorem contents_through (hseeks : pattern.Seeks mark) {run : Text} {bracket : Char}
    (hbracket : isOpener bracket = true) (hplain : ∀ c ∈ run ++ [bracket], isPlain c = true)
    (hrow : lexemes none place.rest = row) (hrow' : lexemes none place'.rest = through 1 row)
    {front tail : List Lexeme} {found found' : Match} (hsplit : through 1 row = front ++ tail)
    (hat : FoundAt pattern place row (tail ++ beyond 1 row) found)
    (hat' : FoundAt pattern place' (through 1 row) tail found')
    (htext : found.text = run ++ [bracket]) (htext' : found'.text = run ++ [bracket]) :
    found.contents = found'.contents := by
  subst hrow
  rw [← hrow'] at hat'
  obtain ⟨after, htail, hafter⟩ := exists_bracket hseeks hat htext hplain hbracket
  obtain ⟨after', htail', hafter'⟩ := exists_bracket hseeks hat' htext' hplain hbracket
  rw [htail', List.append_assoc, List.append_cancel_left_eq, List.cons_append] at htail
  obtain ⟨-, rfl⟩ := List.cons.inj htail
  have hinside : through 1 (lexemes none place.rest)
      = (front ++ run.map .code) ++ .code bracket :: after' := by
    rw [hsplit, htail', List.append_assoc]
  rw [Match.contents, Match.contents, window_eq_held hbracket hafter, window_eq_held hbracket hafter',
    held_through hbracket hinside]

end

/-! ### The search in an object and in a list -/

section

variable {key rest : Text} {first : Char} {row : List Lexeme} {place place' : Cursor}

/-- Behind the brace of an object, the first list of a key is the same whether or not the text goes on
behind the object. -/
theorem findSome?_through (hkey : key = first :: rest) (hmark : (Mark.keyList key).IsOpen)
    (hplain : ∀ c ∈ key, isPlain c = true) (hbefore : place.before = place'.before)
    (hplace : place.rest = rowText row) (hplace' : place'.rest = rowText (through 1 row))
    (hrow : lexemes none place.rest = row) (hrow' : lexemes none place'.rest = through 1 row) :
    ((placed place (through 1 row)).findSome? (Pattern.keyList key).matchToken?).map Match.contents
      = ((placed place' (through 1 row)).findSome? (Pattern.keyList key).matchToken?).map
        Match.contents := by
  have hseeks := Pattern.seeks_keyList hkey
  rw [List.map_findSome?, List.map_findSome?]
  refine findSome?_placed_congr ?_
  intro front lexeme tail hsplit
  have hwhole : row = front ++ (lexeme :: tail ++ beyond 1 row) := by
    rw [← List.append_assoc, ← hsplit, through_append_beyond]
  have hplaceSplit : place.rest = rowText front ++ rowText (lexeme :: tail ++ beyond 1 row) := by
    rw [← rowText_append, ← hwhole, hplace]
  have hplaceSplit' : place'.rest = rowText front ++ rowText (lexeme :: tail) := by
    rw [← rowText_append, ← hsplit, hplace']
  have hrest : (place.skip (rowText front).length).rest = rowText (lexeme :: tail ++ beyond 1 row) := by
    rw [Cursor.rest_skip, hplaceSplit, List.drop_left]
  have hrest' : (place'.skip (rowText front).length).rest = rowText (lexeme :: tail) := by
    rw [Cursor.rest_skip, hplaceSplit', List.drop_left]
  have hsame : (place.skip (rowText front).length).before = (place'.skip (rowText front).length).before := by
    rw [before_skip_left hplaceSplit, before_skip_left hplaceSplit', hbefore]
  cases lexeme with
  | quoted text | regex text | comment text => rfl
  | code c =>
    have hmatch := match?_through hseeks hmark hsplit (List.cons_ne_nil _ _) hsame hrest hrest'
    show ((Pattern.keyList key).match? _).map Match.contents
      = ((Pattern.keyList key).match? _).map Match.contents
    rw [hmatch]
    cases hfound : (Pattern.keyList key).match? (place'.skip (rowText front).length) with
    | none => rfl
    | some found =>
      rw [hfound] at hmatch
      obtain ⟨-, gap, more, -, hgap, hshape⟩ := Pattern.match?_keyList.mp hfound
      have htext : found.text = (key ++ ':' :: gap) ++ ['['] := by
        rw [hshape]
        simp
      refine congrArg some (contents_through hseeks (by decide)
        (isPlain_of_mem_shape ':' '[' hplain (by decide) hgap (by decide)) hrow hrow' hsplit
        ⟨front, hwhole, rfl, hmatch⟩ ⟨front, hsplit, Pattern.place_of_match? hfound, ?_⟩ htext htext)
      rwa [Pattern.place_of_match? hfound]

theorem matchToken?_brace (hkey : key = first :: rest) (hfirst : first ≠ '{') {more : Text}
    (hplace : place.rest = '{' :: more) :
    (Pattern.keyList key).matchToken? ⟨place, .code '{'⟩ = none := by
  rw [Option.eq_none_iff_forall_ne_some]
  intro found hfound
  have hmatch : (Pattern.keyList key).match? place = some found := hfound
  obtain ⟨-, gap, behind, hrest, -⟩ := Pattern.match?_keyList.mp hmatch
  rw [hplace, hkey] at hrest
  exact hfirst (List.cons.inj hrest).1.symm

theorem findSome?_object (hkey : key = first :: rest) (hmark : (Mark.keyList key).IsOpen)
    (hfirst : first ≠ '{') (hplain : ∀ c ∈ key, isPlain c = true) (hreads : Reads (.code '{' :: row))
    (hplace : place.rest = rowText (.code '{' :: row)) :
    ((placed place (.code '{' :: through 1 row)).findSome? (Pattern.keyList key).matchToken?).map
        Match.contents
      = (Pattern.keyList key).section? (rowText (.code '{' :: through 1 row)) := by
  have hbrace : isOpener '{' = true := by decide
  have hobject : Reads (.code '{' :: through 1 row) := by
    rw [← through_append_beyond 1 row, ← List.cons_append] at hreads
    exact hreads.left
  let object := Cursor.ofText (rowText (.code '{' :: through 1 row))
  have hobjectRest : object.rest = '{' :: rowText (through 1 row) := rfl
  have hplaceRest : place.rest = '{' :: rowText row := hplace
  have hsection : (Pattern.keyList key).section? (rowText (.code '{' :: through 1 row))
      = ((placed object (.code '{' :: through 1 row)).findSome? (Pattern.keyList key).matchToken?).map
        Match.contents := by
    rw [Pattern.section?, Pattern.firstInCode?_eq_placed]
    show Option.map _ ((placed object (lexemes none (rowText (.code '{' :: through 1 row)))).findSome? _)
      = _
    rw [hobject.of_isSettling (by decide)]
    rfl
  have hnext : (place.skip 1).rest = rowText row := by
    rw [Cursor.rest_skip, hplaceRest, List.drop_one, List.tail_cons]
  have hnext' : (object.skip 1).rest = rowText (through 1 row) := by
    rw [Cursor.rest_skip, hobjectRest, List.drop_one, List.tail_cons]
  have hskip : ∀ {place : Cursor} {more : Text}, place.rest = ['{'] ++ more →
      (place.skip 1).before = some '{' := fun h => before_skip_left h
  have hbefore : (place.skip 1).before = (object.skip 1).before :=
    (hskip hplaceRest).trans (hskip hobjectRest).symm
  rw [hsection, placed, placed, List.findSome?_cons, List.findSome?_cons,
    matchToken?_brace hkey hfirst hplaceRest, matchToken?_brace hkey hfirst hobjectRest]
  exact findSome?_through hkey hmark hplain hbefore hnext hnext' (hnext ▸ hreads.of_isOpener hbrace)
    (hnext' ▸ hobject.of_isOpener hbrace)

theorem outerTokens_of_ne {depth : Nat} {lexeme : Lexeme}
    (h : ∀ c ∈ ['{', '[', '}', ']'], lexeme ≠ .code c) :
    outerTokens depth place (lexeme :: row)
      = ⟨place, lexeme⟩ :: outerTokens depth (place.skip lexeme.text.length) row := by
  rw [outerTokens]
  all_goals exact h _ (by simp)

/-- A search through a list ends with the first section of one of its objects, if nothing begins
between them. -/
theorem findSome?_objectRows (hkey : key = first :: rest) (hmark : (Mark.keyList key).IsOpen)
    (hfirst : first ≠ '{') (hplain : ∀ c ∈ key, isPlain c = true) (depth : Nat) (hreads : Reads row)
    (hplace : place.rest = rowText row)
    (houter : ∀ token ∈ outerTokens depth place row,
      (Pattern.keyList key).matchToken? token = none) :
    ((placed place row).findSome? (Pattern.keyList key).matchToken?).map Match.contents
      = (objectRows depth row).findSome? fun object =>
          (Pattern.keyList key).section? (rowText object) := by
  fun_induction objectRows depth row generalizing place with
  | case1 => rfl
  | case2 row ih =>
    have hcut : .code '{' :: row = (.code '{' :: through 1 row) ++ beyond 1 row := by
      rw [List.cons_append, through_append_beyond]
    rw [outerTokens, if_pos rfl] at houter
    have hobject := findSome?_object hkey hmark hfirst hplain hreads hplace
    have hbehind : (place.skip (rowText (.code '{' :: through 1 row)).length).rest
        = rowText (beyond 1 row) := by
      rw [Cursor.rest_skip, hplace, hcut, rowText_append, List.drop_left]
    have hmore := ih (hcut ▸ hreads).right hbehind houter
    rw [List.findSome?_cons, ← hmore, ← hobject]
    conv_lhs => rw [hcut]
    rw [placed_append, List.findSome?_append, Option.map_or]
    cases (placed place (.code '{' :: through 1 row)).findSome? (Pattern.keyList key).matchToken? with
    | none => rfl
    | some found => rfl
  | case3 depth row hdepth ih =>
    rw [outerTokens, if_neg hdepth] at houter
    obtain ⟨hhere, hmore⟩ := List.forall_mem_cons.mp houter
    rw [placed, List.findSome?_cons, hhere]
    exact ih (hreads.right (a := [_])) (rest_skip_of_cons hplace) hmore
  | case4 depth row ih | case5 depth row ih | case6 depth row ih =>
    rw [outerTokens] at houter
    obtain ⟨hhere, hmore⟩ := List.forall_mem_cons.mp houter
    rw [placed, List.findSome?_cons, hhere]
    exact ih (hreads.right (a := [_])) (rest_skip_of_cons hplace) hmore
  | case7 depth lexeme row hbrace hlist hclose hend ih =>
    rw [outerTokens_of_ne (by simp_all)] at houter
    obtain ⟨hhere, hmore⟩ := List.forall_mem_cons.mp houter
    rw [placed, List.findSome?_cons, hhere]
    exact ih (hreads.right (a := [_])) (rest_skip_of_cons hplace) hmore

/-- **The first member with a list of a key provides it**, if no key of such a list stands between
the members. -/
theorem Pattern.section?_eq_findSome?_objects (hkey : key = first :: rest)
    (hmark : (Mark.keyList key).IsOpen) (hfirst : first ≠ '{') (hplain : ∀ c ∈ key, isPlain c = true)
    {text : Text} (hkeeps : (keyList key).KeepsInside text) :
    (keyList key).section? text = (objects text).findSome? (keyList key).section? := by
  rw [objects_eq, List.findSome?_map, section?, firstInCode?_eq_placed]
  exact findSome?_objectRows hkey hmark hfirst hplain 0 (Reads.of_text none text)
    (rowText_lexemes none text).symm hkeeps

end

end GroqSnippets
