/-
Searches with a comment line and without it.

A pattern is matched against the text, and there a comment ends a run of blanks.  But a mark that
does not run over a line feed does not run over the comment behind it either, so a search ends at
the same text in both rows, and the rows from there on differ in the comment at most.

Where a search ends in a list, so do its sections.
-/
import GroqSnippets.Proofs.Source.Passage
import GroqSnippets.Proofs.Source.Remark

namespace GroqSnippets

/-! ### Searches

A mark is found at the head of both rows, or it is one that is split and does not occur.  What
differs is a comment and a line feed, where no mark begins, so the two searches pass over the same
lexemes.
-/

section

variable {pattern : Pattern} {mark : Mark} {line : Line} {last : Option Char}
  {back row other : List Lexeme} {place place' : Cursor}

/-- Plain text at the head of a row is read character by character. -/
theorem Reads.exists_of_isPlain {run more : Text} (h : Reads row)
    (hrun : ∀ c ∈ run, isPlain c = true) (htext : rowText row = run ++ more) :
    ∃ after, row = run.map .code ++ after := by
  obtain ⟨last, h⟩ := h
  rw [htext, lexemes_append_of_isPlain hrun] at h
  exact ⟨_, h.symm⟩

/-- A mark that runs over the end of a row from its head is split there. -/
theorem rowSplitsMark_of_runsOver (hmark : mark ∈ codeMarks) (hreads : Reads row) {rest : Text}
    (hruns : mark.RunsOver (rowText row) rest) (hadmits : mark.Admits last) :
    RowSplitsMark last row rest := by
  obtain ⟨hplain, -⟩ := hruns.run_facts hmark
  obtain ⟨after, hafter⟩ := hreads.exists_of_isPlain hplain (List.append_nil _).symm
  have hempty : rowText after = [] := by
    have hspelled := congrArg rowText hafter
    rw [rowText_append, rowText_map_code] at hspelled
    exact List.self_eq_append_right.mp hspelled
  obtain rfl : after = [] := by
    cases after with
    | nil => rfl
    | cons lexeme after =>
      rw [rowText_cons, List.append_eq_nil_iff] at hempty
      exact absurd hempty.1 (hreads.ne_nil lexeme (by rw [hafter]; simp))
  exact ⟨mark, hmark, [], rowText row, by simpa using hafter, hruns, hadmits⟩

/-- An occurrence at the head of one row is one at the head of the other. -/
theorem heads_iff (hmark : mark ∈ codeMarks) (h : Remarked line last back row other)
    (hreads : Reads row) (hadmits : mark.Admits last) (shape : Text) :
    mark.Heads shape (rowText row) ↔ mark.Heads shape (rowText other) := by
  cases h with
  | refl => rfl
  | seam front back hfits =>
    have hsplit : rowText (front ++ .code '\n' :: back) = rowText front ++ '\n' :: rowText back :=
      rowText_append _ _
    have hsplit' :
        rowText (front ++ .code '\n' :: .comment ('/' :: '/' :: line.note) :: .code '\n' :: back)
          = rowText front ++ '\n' :: ('/' :: '/' :: (line.note ++ '\n' :: rowText back)) := by
      rw [rowText_append]
      rfl
    rw [hsplit, hsplit']
    constructor
    · intro hheads
      rcases hheads.of_append hmark with hfront | hruns
      · exact hfront.append _
      · exact absurd (rowSplitsMark_of_runsOver hmark hreads.left hruns hadmits) hfits.splits
    · intro hheads
      rcases hheads.of_append hmark with hfront | hruns
      · exact hfront.append _
      · exact absurd hruns (not_runsOver_slash hmark)

/-- Where one row has an occurrence of a pattern at its head, so has the other. -/
theorem match?_remarked (hmark : mark ∈ codeMarks) (hseeks : pattern.Seeks mark)
    (h : Remarked line place.before back row other) (hreads : Reads row)
    (hplace : place.rest = rowText row) (hplace' : place'.rest = rowText other)
    (hbefore : place.before = place'.before) :
    pattern.match? place'
      = (pattern.match? place).map fun found => { found with place := place' } := by
  obtain ⟨value, hiff⟩ := hseeks
  refine Option.ext fun found' => ?_
  rw [hiff, Option.map_eq_some_iff, hplace', ← hbefore]
  constructor
  · rintro ⟨hadmits, hheads, rfl, hvalue⟩
    rw [← heads_iff hmark h hreads hadmits] at hheads
    refine ⟨⟨place, found'.text, value⟩, (hiff _ _).mpr ⟨hadmits, by rwa [hplace], rfl, rfl⟩, ?_⟩
    rw [← hvalue]
  · rintro ⟨found, hfound, rfl⟩
    obtain ⟨hadmits, hheads, -, hvalue⟩ := (hiff _ _).mp hfound
    rw [hplace, heads_iff hmark h hreads hadmits] at hheads
    exact ⟨hadmits, hheads, rfl, hvalue⟩

theorem match?_break (hmark : mark ∈ codeMarks) (hseeks : pattern.Seeks mark) {rest : Text}
    (hplace : place.rest = '\n' :: rest) : pattern.match? place = none := by
  obtain ⟨value, hiff⟩ := hseeks
  obtain ⟨hne, -, hbreak, -⟩ := opening_facts mark hmark
  rw [Option.eq_none_iff_forall_ne_some]
  intro found hfound
  obtain ⟨-, ⟨gap, closing, more, -, -, hshape, htext⟩, -, -⟩ := (hiff _ _).mp hfound
  obtain ⟨c, opening, hopening⟩ := List.exists_cons_of_ne_nil hne
  rw [hplace, hshape, hopening] at htext
  obtain ⟨rfl, -⟩ := List.cons.inj htext
  rw [hopening] at hbreak
  exact hbreak List.mem_cons_self

/-- An occurrence in a row laid out from a place, and the part of the row that begins with it. -/
def FoundAt (pattern : Pattern) (place : Cursor) (row tail : List Lexeme) (found : Match) : Prop :=
  ∃ front, row = front ++ tail ∧ found.place = place.skip (rowText front).length
    ∧ pattern.match? found.place = some found

/-- Two occurrences of the same text, in rows that differ in the comment at most. -/
def FoundAlike (pattern : Pattern) (line : Line) (back : List Lexeme) (place place' : Cursor)
    (row other : List Lexeme) (found found' : Match) : Prop :=
  found'.text = found.text ∧ ∃ last tail tail', Remarked line last back tail tail'
    ∧ FoundAt pattern place row tail found ∧ FoundAt pattern place' other tail' found'

theorem FoundAt.rest {tail : List Lexeme} {found : Match} (hplace : place.rest = rowText row)
    (h : FoundAt pattern place row tail found) : found.place.rest = rowText tail := by
  obtain ⟨front, rfl, hat, -⟩ := h
  rw [hat, Cursor.rest_skip, hplace, rowText_append, List.drop_left]

theorem FoundAt.behind {tail : List Lexeme} {found : Match} (front : List Lexeme)
    (h : FoundAt pattern (place.skip (rowText front).length) row tail found) :
    FoundAt pattern place (front ++ row) tail found := by
  obtain ⟨front', rfl, hat, hmatch⟩ := h
  refine ⟨front ++ front', by rw [List.append_assoc], ?_, hmatch⟩
  rw [hat, Cursor.skip_skip, rowText_append, List.length_append]

theorem FoundAlike.behind {found found' : Match} (front front' : List Lexeme)
    (h : FoundAlike pattern line back (place.skip (rowText front).length)
      (place'.skip (rowText front').length) row other found found') :
    FoundAlike pattern line back place place' (front ++ row) (front' ++ other) found found' := by
  obtain ⟨htext, last, tail, tail', htail, hat, hat'⟩ := h
  exact ⟨htext, last, tail, tail', htail, hat.behind front, hat'.behind front'⟩

theorem before_skip_of_cons {lexeme : Lexeme} (hplace : place.rest = rowText (lexeme :: row)) :
    (place.skip lexeme.text.length).before = lexeme.text.getLast?.or place.before := by
  rw [Cursor.skip_eq, hplace, rowText_cons, List.take_left]

/-- Nothing is found at line feeds and in comments. -/
theorem findSome?_silent (hmark : mark ∈ codeMarks) (hseeks : pattern.Seeks mark)
    (hrow : ∀ lexeme ∈ row, lexeme = .code '\n' ∨ lexeme.isComment = true) {more : Text}
    (hplace : place.rest = rowText row ++ more) :
    (placed place row).findSome? pattern.matchToken? = none := by
  refine List.findSome?_eq_none_iff.mpr ?_
  intro token htoken
  obtain ⟨before, after, rfl, hat⟩ := mem_placed_iff.mp htoken
  rcases hrow token.lexeme (by simp) with hbreak | hcomment
  · have hrest : token.place.rest = '\n' :: (rowText after ++ more) := by
      rw [hat, Cursor.rest_skip, hplace, rowText_append, List.append_assoc, List.drop_left, hbreak]
      rfl
    rw [Pattern.matchToken?, hbreak]
    exact match?_break hmark hseeks hrest
  · exact Pattern.matchToken?_of_isComment hcomment

/-- Behind a run that is not empty, its last character stands before the place. -/
theorem before_skip_of_ne_nil {run more : Text} (hne : run ≠ [])
    (hplace : place.rest = run ++ more) : (place.skip run.length).before = run.getLast? := by
  obtain ⟨c, hc⟩ := Option.isSome_iff_exists.mp (List.getLast?_isSome.mpr hne)
  rw [Cursor.skip_eq, hplace, List.take_left, hc]
  rfl

theorem before_skip_break (front : List Lexeme) {more : Text}
    (hplace : place.rest = rowText (front ++ [.code '\n']) ++ more) :
    (place.skip (rowText (front ++ [.code '\n'])).length).before = some '\n' := by
  rw [before_skip_of_ne_nil (by simp [Lexeme.text]) hplace, rowText_append]
  simp [Lexeme.text]

/-- Where the first lexeme of both rows begins an occurrence, it begins one of the same text. -/
theorem matchToken?_remarked (hmark : mark ∈ codeMarks) (hseeks : pattern.Seeks mark)
    {lexeme : Lexeme} (h : Remarked line place.before back (lexeme :: row) (lexeme :: other))
    (hreads : Reads (lexeme :: row)) (hplace : place.rest = rowText (lexeme :: row))
    (hplace' : place'.rest = rowText (lexeme :: other)) (hbefore : place.before = place'.before) :
    Option.Rel (FoundAlike pattern line back place place' (lexeme :: row) (lexeme :: other))
      (pattern.matchToken? ⟨place, lexeme⟩) (pattern.matchToken? ⟨place', lexeme⟩) := by
  cases lexeme with
  | quoted _ | regex _ | comment _ => exact .none
  | code c =>
    have hmatch' := match?_remarked hmark hseeks h hreads hplace hplace' hbefore
    simp only [Pattern.matchToken?]
    cases hmatch : pattern.match? place with
    | none =>
      rw [hmatch] at hmatch'
      rw [hmatch']
      exact .none
    | some found =>
      rw [hmatch] at hmatch'
      rw [hmatch']
      obtain rfl := Pattern.place_of_match? hmatch
      exact .some ⟨rfl, _, _, _, h, ⟨[], rfl, rfl, hmatch⟩, ⟨[], rfl, rfl, hmatch'⟩⟩

/-- Nothing begins at the line feeds and in the comment, and behind them the rows are the same. -/
theorem findSome?_seam (hmark : mark ∈ codeMarks) (hseeks : pattern.Seeks mark)
    (hplace : place.rest = rowText (.code '\n' :: row))
    (hplace' : place'.rest
      = rowText (.code '\n' :: .comment ('/' :: '/' :: line.note) :: .code '\n' :: row))
    (hmore : ∀ next next' : Cursor, next.rest = rowText row → next'.rest = rowText row →
      next.before = next'.before →
      Option.Rel (FoundAlike pattern line back next next' row row)
        ((placed next row).findSome? pattern.matchToken?)
        ((placed next' row).findSome? pattern.matchToken?)) :
    Option.Rel (FoundAlike pattern line back place place' (.code '\n' :: row)
        (.code '\n' :: .comment ('/' :: '/' :: line.note) :: .code '\n' :: row))
      ((placed place (.code '\n' :: row)).findSome? pattern.matchToken?)
      ((placed place' (.code '\n' :: .comment ('/' :: '/' :: line.note) :: .code '\n' :: row)).findSome?
        pattern.matchToken?) := by
  let feed : List Lexeme := [.code '\n']
  let feeds : List Lexeme := [.code '\n', .comment ('/' :: '/' :: line.note), .code '\n']
  have hsplit : place.rest = rowText feed ++ rowText row := hplace
  have hsplit' : place'.rest = rowText feeds ++ rowText row := by simpa [feeds] using hplace'
  have hfeed : (placed place feed).findSome? pattern.matchToken? = none :=
    findSome?_silent hmark hseeks (by simp [feed]) hsplit
  have hfeeds : (placed place' feeds).findSome? pattern.matchToken? = none :=
    findSome?_silent hmark hseeks (by simp [feeds, Lexeme.isComment]) hsplit'
  have hbefore : (place.skip (rowText feed).length).before
      = (place'.skip (rowText feeds).length).before :=
    (before_skip_break [] hsplit).trans
      (before_skip_break [.code '\n', .comment ('/' :: '/' :: line.note)] hsplit').symm
  have hbehind := hmore _ _ (by rw [Cursor.rest_skip, hsplit, List.drop_left])
    (by rw [Cursor.rest_skip, hsplit', List.drop_left]) hbefore
  show Option.Rel (FoundAlike pattern line back place place' (feed ++ row) (feeds ++ row))
    ((placed place (feed ++ row)).findSome? pattern.matchToken?)
    ((placed place' (feeds ++ row)).findSome? pattern.matchToken?)
  rw [placed_append, placed_append, List.findSome?_append, List.findSome?_append, hfeed, hfeeds]
  exact rel_mono hbehind fun _ _ halike => halike.behind feed feeds

/-- A search through both rows finds the same text, or nothing in both. -/
theorem findSome?_placed (hmark : mark ∈ codeMarks) (hseeks : pattern.Seeks mark)
    (h : Remarked line place.before back row other) (hreads : Reads row)
    (hplace : place.rest = rowText row) (hplace' : place'.rest = rowText other)
    (hbefore : place.before = place'.before) :
    Option.Rel (FoundAlike pattern line back place place' row other)
      ((placed place row).findSome? pattern.matchToken?)
      ((placed place' other).findSome? pattern.matchToken?) := by
  have hone : ∀ lexeme : Lexeme, rowText [lexeme] = lexeme.text := by simp
  induction row generalizing other place place' with
  | nil =>
    rw [h.eq_nil]
    exact .none
  | cons lexeme row ih =>
    have hbehind := hreads.right (a := [lexeme])
    rcases h.cons_cases with ⟨rest, rfl, hrest⟩ | ⟨rfl, rfl⟩
    · have hhere := matchToken?_remarked hmark hseeks h hreads hplace hplace' hbefore
      rw [placed, placed, List.findSome?_cons, List.findSome?_cons]
      generalize pattern.matchToken? ⟨place, lexeme⟩ = found at hhere
      generalize pattern.matchToken? ⟨place', lexeme⟩ = found' at hhere
      cases hhere with
      | some halike => exact .some halike
      | none =>
        have hnext := before_skip_of_cons hplace
        rw [← hnext] at hrest
        have hmore := ih hrest hbehind (rest_skip_of_cons hplace) (rest_skip_of_cons hplace')
          (by rw [hnext, before_skip_of_cons hplace', hbefore])
        rw [← hone lexeme] at hmore ⊢
        exact rel_mono hmore fun _ _ halike => halike.behind [lexeme] [lexeme]
    · exact findSome?_seam hmark hseeks hplace hplace' fun next next' hnext hnext' hsame =>
        ih (.refl back row) hbehind hnext hnext' hsame

theorem firstInCode?_remarked (hmark : mark ∈ codeMarks) (hseeks : pattern.Seeks mark)
    (h : Remarked line place.before back (lexemes none place.rest) (lexemes none place'.rest))
    (hbefore : place.before = place'.before) :
    Option.Rel (FoundAlike pattern line back place place' (lexemes none place.rest)
        (lexemes none place'.rest))
      (pattern.firstInCode? place) (pattern.firstInCode? place') := by
  rw [Pattern.firstInCode?_eq_placed, Pattern.firstInCode?_eq_placed]
  exact findSome?_placed hmark hseeks h (Reads.of_text none _) (rowText_lexemes _ _).symm
    (rowText_lexemes _ _).symm hbefore

/-- The bracket of an occurrence, and what the row holds behind it. -/
theorem exists_bracket (hseeks : pattern.Seeks mark) {tail : List Lexeme} {found : Match}
    {run : Text} {bracket : Char} (hat : FoundAt pattern place (lexemes none place.rest) tail found)
    (htext : found.text = run ++ [bracket]) (hplain : ∀ c ∈ run ++ [bracket], isPlain c = true)
    (hbracket : isOpener bracket = true) :
    ∃ after, tail = run.map .code ++ .code bracket :: after
      ∧ lexemes none found.bracket.rest = .code bracket :: after := by
  have htail := hat.rest (rowText_lexemes none place.rest).symm
  obtain ⟨front, hrow, hplace, hmatch⟩ := hat
  obtain ⟨value, hiff⟩ := hseeks
  obtain ⟨-, ⟨gap, closing, more, -, -, -, hrest⟩, -, -⟩ := (hiff _ _).mp hmatch
  have hreads := Reads.of_text none place.rest
  rw [hrow] at hreads
  have hspelled : rowText tail = (run ++ [bracket]) ++ more := by
    rw [← htext, ← hrest, htail]
  obtain ⟨after, hafter⟩ := hreads.right.exists_of_isPlain hplain hspelled
  have hsplit : tail = run.map .code ++ .code bracket :: after := by simpa using hafter
  refine ⟨after, hsplit, ?_⟩
  have hwhole : lexemes none place.rest = (front ++ run.map .code) ++ .code bracket :: after := by
    rw [hrow, hsplit, List.append_assoc]
  have hthere := Pattern.lexemes_skip_of_isSettling hwhole (isSettling_of_isOpener hbracket)
  rw [rowText_append, rowText_map_code, List.length_append] at hthere
  rwa [Match.bracket, hplace, Cursor.skip_skip, htext, List.length_append, List.length_singleton,
    Nat.add_sub_cancel]

/-! ### Sections -/

theorem lexemes_held {c : Char} (hc : isOpener c = true) (h : Reads (.code c :: row)) :
    lexemes none (rowText (held 1 row)) = held 1 row := by
  obtain ⟨more, hmore⟩ := held_isPrefix 1 row
  rw [← hmore, ← List.cons_append] at h
  exact h.left.of_isOpener hc

theorem section?_remarked {key rest : Text} {first : Char} (hkey : key = first :: rest)
    (hmark : Mark.keyList key ∈ codeMarks) (hplain : ∀ c ∈ key, isPlain c = true)
    {text text' : Text} (h : Remarked line none back (lexemes none text) (lexemes none text')) :
    Option.Rel
      (fun body body' => ∃ back, Remarked line none back (lexemes none body) (lexemes none body'))
      ((Pattern.keyList key).section? text) ((Pattern.keyList key).section? text') := by
  have hseeks := Pattern.seeks_keyList hkey
  have hsearch : Option.Rel _ ((Pattern.keyList key).firstInCode? (.ofText text))
      ((Pattern.keyList key).firstInCode? (.ofText text')) :=
    firstInCode?_remarked hmark hseeks h rfl
  refine rel_map hsearch ?_
  intro found found' ⟨htext, last, tail, tail', htail, hat, hat'⟩
  obtain ⟨-, -, -, hmatch⟩ := id hat
  obtain ⟨-, gap, more, -, hgap, hshape⟩ := Pattern.match?_keyList.mp hmatch
  have hrun : found.text = (key ++ ':' :: gap) ++ ['['] := by
    rw [hshape]
    simp
  have hopener : isOpener '[' = true := by decide
  have hall := isPlain_of_mem_shape ':' '[' hplain (by decide) hgap (by decide)
  obtain ⟨after, rfl, hafter⟩ := exists_bracket hseeks hat hrun hall hopener
  obtain ⟨after', rfl, hafter'⟩ := exists_bracket hseeks hat' (htext.trans hrun) hall hopener
  have hreads := Reads.of_text none found.bracket.rest
  have hreads' := Reads.of_text none found'.bracket.rest
  rw [hafter] at hreads
  rw [hafter'] at hreads'
  rw [window_eq_held hopener hafter, window_eq_held hopener hafter', lexemes_held hopener hreads,
    lexemes_held hopener hreads']
  exact ((htail.of_run hopener).behind_opener hopener).cut.1

end

end GroqSnippets
