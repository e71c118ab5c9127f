/-
A comment on a line of its own.

A row may have a comment behind one of its line feeds, and a line feed behind that.  The reader
drops comments before it looks at brackets, so every cut gives two stretches that are the same row,
or the same row but for the comment; and what stands directly in two blocks differs in one line feed
at most.

What is known of the place is kept through all cuts: no mark is split there, and the text between the
quotes around it on its level reaches over the line.  A stretch has less before the place and less
behind it, and both still hold, since a mark that is split in the stretch is split in the whole, and
since what is behind the place on its level ends before the stretch does.
-/
import GroqSnippets.Proofs.Source.Doubled
import GroqSnippets.Proofs.Source.Mark
import GroqSnippets.Proofs.Source.Stretch

namespace GroqSnippets

/-! ### Rows with a comment

Rows are compared up to what follows them, since a value or a mark may reach over the end of a row.
Where the line stands is part of the comparison, and goes along as rows are taken apart.
-/

/-- Whether a line may stand between two rows, with a character before the first one. -/
structure Line.Fits (line : Line) (last : Option Char) (front back : List Lexeme) : Prop where
  splits : ¬ RowSplitsMark last front (rowText back)
  across : line.Meets none (levelBefore 1 front.reverse) (directOf 1 back)

/-- The second row is the first one, or it has a comment and a line feed more, behind a line feed
where the line may stand.  What follows them is the same in both. -/
inductive Remarked (line : Line) (last : Option Char) :
    (back row other : List Lexeme) → Prop where
  | refl (back row : List Lexeme) : Remarked line last back row row
  | seam (front back : List Lexeme) (hfits : line.Fits last front back) :
      Remarked line last back (front ++ .code '\n' :: back)
        (front ++ .code '\n' :: .comment ('/' :: '/' :: line.note) :: .code '\n' :: back)

namespace Line.Fits

variable {line : Line} {last : Option Char} {a front back b : List Lexeme}

/-- In a stretch of the rows, with the same behind it at depth one. -/
theorem stretch (h : line.Fits last (a ++ front) (back ++ b))
    (hdirect : directOf 1 back = directOf 1 (back ++ b)) :
    line.Fits ((rowText a).getLast?.or last) front back where
  splits hless := by
    refine h.splits ?_
    rw [rowText_append]
    exact hless.extend _
  across := by
    have hmore := h.across
    rw [List.reverse_append] at hmore
    rw [hdirect]
    exact hmore.of_suffix (levelBefore_append 1 front.reverse a.reverse)

/-- With a brace in the first row it does not matter what stands before the row. -/
theorem brace (h : line.Fits last (a ++ .code '{' :: front) back) (last' : Option Char) :
    line.Fits last' (a ++ .code '{' :: front) back where
  splits hless := h.splits (hless.of_brace last)
  across := h.across

end Line.Fits

namespace Remarked

variable {line : Line} {last : Option Char} {run : Text} {back row other : List Lexeme}
  {lexeme : Lexeme}

theorem eq_nil (h : Remarked line last back [] other) : other = [] := by
  generalize hrow : ([] : List Lexeme) = row at h
  cases h with
  | refl => rfl
  | seam front back hfits => simp at hrow

/-- The first lexeme is the same in both rows, and the comment stands right behind it or later. -/
theorem cons_cases (h : Remarked line last back (lexeme :: row) other) :
    (∃ rest, other = lexeme :: rest
      ∧ Remarked line (lexeme.text.getLast?.or last) back row rest)
    ∨ lexeme = .code '\n'
      ∧ other = .code '\n' :: .comment ('/' :: '/' :: line.note) :: .code '\n' :: row := by
  generalize hwhole : lexeme :: row = whole at h
  cases h with
  | refl =>
    subst hwhole
    exact Or.inl ⟨row, rfl, .refl back row⟩
  | seam front back hfits =>
    cases front with
    | nil =>
      obtain ⟨rfl, rfl⟩ := List.cons.inj hwhole
      exact Or.inr ⟨rfl, rfl⟩
    | cons first front =>
      obtain ⟨rfl, rfl⟩ := List.cons.inj hwhole
      have hsplit : line.Fits last ([lexeme] ++ front) (back ++ []) := by simpa using hfits
      have hmore := hsplit.stretch (by simp)
      rw [rowText_cons, rowText_nil, List.append_nil] at hmore
      exact Or.inl ⟨_, rfl, .seam front back hmore⟩

/-- Where two rows begin with the same code, the line feed is behind it. -/
theorem exists_behind {c : Char} (hc : c ≠ '\n')
    (h : Remarked line last back (run.map .code ++ .code c :: row)
      (run.map .code ++ .code c :: other)) :
    row = other ∨ ∃ front, line.Fits last (run.map .code ++ .code c :: front) back
      ∧ row = front ++ .code '\n' :: back
      ∧ other = front ++ .code '\n' :: .comment ('/' :: '/' :: line.note) :: .code '\n' :: back := by
  have hcode : Lexeme.comment ('/' :: '/' :: line.note) ∉ run.map .code := by simp
  generalize run.map Lexeme.code = a at h hcode ⊢
  generalize hrow : a ++ .code c :: row = whole at h
  generalize hother : a ++ .code c :: other = whole' at h
  cases h with
  | refl =>
    obtain ⟨-, hsame⟩ := List.append_inj (hrow.trans hother.symm) rfl
    exact .inl (List.cons.inj hsame).2
  | seam front back hfits =>
    rcases List.append_eq_append_iff.mp hrow with ⟨inner, rfl, hrest⟩ | ⟨inner, rfl, hrest⟩
    · cases inner with
      | nil => exact absurd (Lexeme.code.inj (List.cons.inj hrest).1) hc
      | cons first inner =>
        obtain ⟨rfl, rfl⟩ := List.cons.inj hrest
        refine .inr ⟨inner, hfits, rfl, ?_⟩
        simpa using hother
    · -- Otherwise the comment would be among the code.
      cases inner with
      | nil => exact absurd (Lexeme.code.inj (List.cons.inj hrest).1).symm hc
      | cons first inner =>
        obtain ⟨rfl, -⟩ := List.cons.inj hrest
        have hthere : inner ++ .code c :: other
            = .comment ('/' :: '/' :: line.note) :: .code '\n' :: back := by
          simpa using hother
        cases inner with
        | nil => cases (List.cons.inj hthere).1
        | cons next inner =>
          obtain ⟨rfl, -⟩ := List.cons.inj hthere
          exact absurd (by simp) hcode

theorem of_run {c : Char} (hc : isOpener c = true)
    (h : Remarked line last back (run.map .code ++ .code c :: row)
      (run.map .code ++ .code c :: other)) : Remarked line (some c) back row other := by
  have hbreak : c ≠ '\n' := by
    rintro rfl
    cases hc
  rcases h.exists_behind hbreak with rfl | ⟨front, hfits, rfl, rfl⟩
  · exact .refl back row
  · have hsplit : line.Fits last ((run.map .code ++ [.code c]) ++ front) (back ++ []) := by
      simpa using hfits
    have hmore := hsplit.stretch (by simp)
    rw [rowText_append, List.getLast?_append] at hmore
    exact .seam front back hmore

/-- At the start of a text as behind a bracket. -/
theorem behind_opener {c : Char} (hc : isOpener c = true)
    (h : Remarked line (some c) back row other) : Remarked line none back row other := by
  cases h with
  | refl => exact .refl _ _
  | seam front back hfits =>
    exact .seam front back ⟨fun hless => hfits.splits (hless.behind_opener hc), hfits.across⟩

/-- Up to the bracket that closes and through it the rows differ in the comment at most, and so they
do beyond. -/
theorem cut (h : Remarked line last back row other) :
    (∃ back, Remarked line last back (held 1 row) (held 1 other))
      ∧ (∃ back, Remarked line last back (through 1 row) (through 1 other))
      ∧ Remarked line ((rowText (through 1 row)).getLast?.or last) back (beyond 1 row)
          (beyond 1 other) := by
  cases h with
  | refl => exact ⟨⟨back, .refl _ _⟩, ⟨back, .refl _ _⟩, .refl _ _⟩
  | seam front back hfits =>
    rcases staysOpen_or_split 1 front with hopen | ⟨inner, closer, more, rfl, hopen, hclose⟩
    · -- The line feed and the comment are passed over, and the cut is behind them.
      obtain ⟨hheld, hthrough, hbeyond⟩ := cut_append hopen (.code '\n' :: back)
      obtain ⟨hheld', hthrough', hbeyond'⟩ :=
        cut_append hopen (.code '\n' :: .comment ('/' :: '/' :: line.note) :: .code '\n' :: back)
      obtain ⟨more, hmore⟩ := held_isPrefix (depthThrough 1 front) back
      obtain ⟨hdirect, hdirect'⟩ :=
        directOf_cut Nat.one_pos (one_le_depthThrough hopen Int.le_rfl) back
      have hkept : line.Fits last ([] ++ front) (held (depthThrough 1 front) back ++ more) := by
        rwa [hmore]
      have hclosed : line.Fits last ([] ++ front) (through (depthThrough 1 front) back
          ++ beyond (depthThrough 1 front) back) := by
        rwa [through_append_beyond]
      rw [hheld, hheld', hthrough, hthrough', hbeyond, hbeyond']
      exact ⟨⟨_, .seam _ _ (hkept.stretch (by rw [hdirect, hmore]))⟩,
        ⟨_, .seam _ _ (hclosed.stretch (by rw [hdirect', through_append_beyond]))⟩, .refl _ _⟩
    · obtain ⟨hheld, hthrough, hbeyond⟩ := cut_of_split hopen hclose (more ++ .code '\n' :: back)
      obtain ⟨hheld', hthrough', hbeyond'⟩ := cut_of_split hopen hclose
        (more ++ .code '\n' :: .comment ('/' :: '/' :: line.note) :: .code '\n' :: back)
      rw [List.append_assoc, List.append_assoc, List.cons_append, List.cons_append, hheld, hheld',
        hthrough, hthrough', hbeyond, hbeyond']
      have hsplit : line.Fits last ((inner ++ [closer]) ++ more) (back ++ []) := by
        simpa using hfits
      exact ⟨⟨back, .refl _ _⟩, ⟨back, .refl _ _⟩, .seam _ _ (hsplit.stretch (by simp))⟩

theorem braced (h : Remarked line last back (run.map .code ++ .code '{' :: row)
      (run.map .code ++ .code '{' :: other)) (last' : Option Char) :
    ∃ back, Remarked line last' back (run.map .code ++ .code '{' :: through 1 row)
      (run.map .code ++ .code '{' :: through 1 other) := by
  rcases h.exists_behind (by decide) with rfl | ⟨front, hfits, rfl, rfl⟩
  · exact ⟨back, .refl _ _⟩
  · rcases staysOpen_or_split 1 front with hopen | ⟨inner, closer, more, rfl, hopen, hclose⟩
    · obtain ⟨-, hthrough, -⟩ := cut_append hopen (.code '\n' :: back)
      obtain ⟨-, hthrough', -⟩ :=
        cut_append hopen (.code '\n' :: .comment ('/' :: '/' :: line.note) :: .code '\n' :: back)
      obtain ⟨-, hdirect⟩ := directOf_cut Nat.one_pos (one_le_depthThrough hopen Int.le_rfl) back
      have hsplit : line.Fits last ([] ++ (run.map .code ++ .code '{' :: front))
          (through (depthThrough 1 front) back ++ beyond (depthThrough 1 front) back) := by
        rwa [through_append_beyond]
      have hinside := hsplit.stretch (by rw [hdirect, through_append_beyond])
      refine ⟨through (depthThrough 1 front) back, ?_⟩
      rw [hthrough, hthrough']
      have hseam := Remarked.seam _ _ (hinside.brace last')
      rw [List.append_assoc, List.append_assoc, List.cons_append, List.cons_append] at hseam
      exact hseam
    · obtain ⟨-, hthrough, -⟩ := cut_of_split hopen hclose (more ++ .code '\n' :: back)
      obtain ⟨-, hthrough', -⟩ := cut_of_split hopen hclose
        (more ++ .code '\n' :: .comment ('/' :: '/' :: line.note) :: .code '\n' :: back)
      rw [List.append_assoc, List.append_assoc, List.cons_append, List.cons_append, hthrough,
        hthrough']
      exact ⟨back, .refl _ _⟩

/-- What stands directly in a block has the line feed twice at most. -/
theorem direct (h : Remarked line last back row other) :
    Beside line (.ofText (directOf 1 row)) (.ofText (directOf 1 other)) := by
  cases h with
  | refl => exact .same rfl rfl
  | seam front back hfits =>
    rcases staysOpen_or_split 1 front with hopen | ⟨inner, closer, more, rfl, hopen, hclose⟩
    · obtain ⟨text, hdirect, hbefore⟩ := exists_direct Nat.one_pos hopen
      rw [Int.natCast_one] at hbefore
      obtain ⟨depth, hdepth⟩ := Int.eq_ofNat_of_zero_le
        (Int.le_trans (by decide) (one_le_depthThrough hopen Int.le_rfl))
      rw [hdirect, hdirect, Int.natCast_one, hdepth, Int.toNat_natCast]
      have hbreak : isOpener '\n' = false ∧ isCloser '\n' = false := by decide
      by_cases hone : depth = 1
      · -- The line feed is at depth one, and what is before it there is what stands before it.
        subst hone
        have hlevel : levelBefore 1 front.reverse = text := by
          simpa [levelBefore] using hbefore hdepth []
        have hmeets := hfits.across
        rw [hlevel] at hmeets
        refine .seam text (directOf 1 back) rfl ?_ ?_ hmeets
        all_goals simp [Cursor.ofText, directOf, hbreak]
      · refine .same rfl ?_
        simp [Cursor.ofText, directOf, hbreak, hone]
    · obtain ⟨text, hdirect, -⟩ := exists_direct Nat.one_pos hopen
      obtain ⟨-, -, -, hdepth⟩ := closesAt_iff.mp hclose
      rw [List.append_assoc, List.append_assoc, List.cons_append, List.cons_append, hdirect, hdirect,
        Int.natCast_one, hdepth]
      have hend := directOf_closer (hdepth ▸ hclose)
      exact .same rfl (by rw [Int.toNat_one, hend, hend])

end Remarked

/-! ### Windows -/

/-- Two windows whose rows are the same but for a comment, and so are their direct texts but for a
line feed. -/
structure Noted (line : Line) (text other : Text) : Prop where
  row : ∃ back, Remarked line none back (lexemes none text) (lexemes none other)
  direct : Beside line (.ofText (directText text)) (.ofText (directText other))

section

variable {line : Line} {last : Option Char} {back row other : List Lexeme}

theorem noted_of_run (run : Text) (hrun : '{' ∉ run)
    (hrow : lexemes none (run ++ rowText (.code '{' :: row)) = run.map .code ++ .code '{' :: row)
    (hother : lexemes none (run ++ rowText (.code '{' :: other))
      = run.map .code ++ .code '{' :: other)
    (h : Remarked line none back (run.map .code ++ .code '{' :: row)
      (run.map .code ++ .code '{' :: other)) :
    Noted line (run ++ rowText (.code '{' :: row)) (run ++ rowText (.code '{' :: other)) where
  row := ⟨back, by rwa [hrow, hother]⟩
  direct := by
    have hbrace : isSettling '{' = true := by decide
    have hreads : Reads (.code '{' :: row) := by
      have hall := Reads.of_text none (run ++ rowText (.code '{' :: row))
      rw [hrow] at hall
      exact hall.right
    have hreads' : Reads (.code '{' :: other) := by
      have hall := Reads.of_text none (run ++ rowText (.code '{' :: other))
      rw [hother] at hall
      exact hall.right
    rw [directText_eq hrun (hreads.of_isSettling hbrace),
      directText_eq hrun (hreads'.of_isSettling hbrace)]
    exact (h.of_run (by decide)).direct

/-! ### Objects -/

theorem objectRows_of_ne {depth : Nat} {lexeme : Lexeme}
    (h : ∀ c ∈ ['{', '[', '}', ']'], lexeme ≠ .code c) :
    objectRows depth (lexeme :: row) = objectRows depth row := by
  rw [objectRows]
  all_goals exact h _ (by simp)

theorem forall₂_objectRows (h : Remarked line last back row other) (hrow : Reads row)
    (hother : Reads other) (depth : Nat) :
    List.Forall₂ (Noted line) ((objectRows depth row).map rowText)
      ((objectRows depth other).map rowText) := by
  fun_induction objectRows depth row generalizing last other with
  | case1 =>
    rw [h.eq_nil, objectRows]
    exact .nil
  | case2 row ih =>
    rcases h.cons_cases with ⟨rest, rfl, -⟩ | ⟨hbreak, -⟩
    · have hbraces : Remarked line last back (([] : Text).map .code ++ .code '{' :: row)
          (([] : Text).map .code ++ .code '{' :: rest) := h
      obtain ⟨_, hthrough⟩ := hbraces.braced none
      obtain ⟨-, -, hbeyond⟩ := (hbraces.of_run (by decide)).cut
      rw [← through_append_beyond 1 row, ← List.cons_append] at hrow
      rw [← through_append_beyond 1 rest, ← List.cons_append] at hother
      have hbrace : isSettling '{' = true := by decide
      rw [objectRows, if_pos rfl]
      exact .cons (noted_of_run [] (by simp) (hrow.left.of_isSettling hbrace)
        (hother.left.of_isSettling hbrace) hthrough) (ih hbeyond hrow.right hother.right)
    · cases hbreak
  | case3 depth row hdepth ih =>
    rcases h.cons_cases with ⟨rest, rfl, hrest⟩ | ⟨hbreak, -⟩
    · rw [objectRows, if_neg hdepth]
      exact ih hrest (hrow.right (a := [_])) (hother.right (a := [_]))
    · cases hbreak
  | case4 depth row ih | case5 depth row ih | case6 depth row ih =>
    rcases h.cons_cases with ⟨rest, rfl, hrest⟩ | ⟨hbreak, -⟩
    · rw [objectRows]
      exact ih hrest (hrow.right (a := [_])) (hother.right (a := [_]))
    · cases hbreak
  | case7 depth lexeme row hbrace hlist hclose hend ih =>
    rcases h.cons_cases with ⟨rest, rfl, hrest⟩ | ⟨rfl, rfl⟩
    · rw [objectRows_of_ne (by simp_all)]
      exact ih hrest (hrow.right (a := [_])) (hother.right (a := [_]))
    · rw [objectRows_of_ne (by simp), objectRows_of_ne (by simp), objectRows_of_ne (by simp)]
      have hsame : Remarked line last back row row := .refl back row
      exact ih hsame (hrow.right (a := [_])) (hrow.right (a := [_]))

theorem forall₂_objects {text other : Text}
    (h : Remarked line last back (lexemes none text) (lexemes none other)) :
    List.Forall₂ (Noted line) (objects text) (objects other) := by
  rw [objects_eq, objects_eq]
  exact forall₂_objectRows h (Reads.of_text none text) (Reads.of_text none other) 0

end

end GroqSnippets
