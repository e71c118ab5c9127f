/-
Where a key occurs in what stands directly in a block.

The pattern of a key looks through a text, and the text is spelled by lexemes.  An occurrence that
begins in code keeps to the code: the key, its colon and the blanks behind it are characters of code,
for each literal begins with a mark that none of them is.  So its value begins where a quoted literal
begins, and as the pattern ends at the first quote and the literal ends with one, it ends within that
literal.  An occurrence that begins in a quoted literal has the colon there too, for the literal would
have to end within the key.
-/
import GroqSnippets.Proofs.Schema.Keys
import GroqSnippets.Proofs.Source.Form

namespace GroqSnippets

/-! ### Rows as a scan reads them

Direct text is cut out of a scan, and with it go the lexemes of that scan.  They need not be the
lexemes of a scan through the direct text, but they are delimited like those.
-/

/-- Whether the lexemes of a row are delimited as those that a scan reads, comments left out. -/
structure Delimited (row : List Lexeme) : Prop where
  code : ∀ c, .code c ∈ row → isQuote c = false
  regex : ∀ text, .regex text ∈ row → ∃ rest, text = '/' :: rest
  /-- A quoted literal begins with a quote, and ends with it if anything follows. -/
  quoted : ∀ front text back, row = front ++ .quoted text :: back →
    ∃ q rest, text = q :: rest ∧ isQuote q = true ∧ (back ≠ [] → rest.getLast? = some q)
  noComment : ∀ lexeme ∈ row, lexeme.isComment = false

theorem directRow_sublist (text : Text) (m o : Nat) :
    (text.directRow m o).Sublist (lexemes none (text.drop m)) := by
  by_cases hm : m ≤ text.length
  · have hsub : ((within (o + 1) (closingOffset text o) (text.seen m)).filter
        (text.standsDirectly m o)).Sublist (located m (lexemes none (text.drop m))) := by
      rw [seen_eq hm]
      exact (List.filter_sublist.trans List.filter_sublist).trans List.filter_sublist
    have hrow := hsub.map (·.2)
    rwa [map_snd_located] at hrow
  · have hnone : text.seen m = [] :=
      List.eq_nil_iff_forall_not_mem.mpr fun item hitem => hm (start_le_of_mem_seen hitem)
    rw [Text.directRow, hnone]
    exact List.nil_sublist _

/-- What stands directly inside a brace is delimited. -/
theorem delimited_directRow (text : Text) (m o : Nat) : Delimited (text.directRow m o) where
  code := by
    intro c hc
    obtain ⟨before, after, hrow⟩ := List.append_of_mem ((directRow_sublist text m o).subset hc)
    have hformed := formed_of_lexemes hrow
    cases hformed with
    | code noQuote _ => exact noQuote
  regex := by
    intro literal hliteral
    obtain ⟨before, after, hrow⟩ := List.append_of_mem ((directRow_sublist text m o).subset hliteral)
    have hformed := formed_of_lexemes hrow
    cases hformed with
    | regex => exact ⟨_, rfl⟩
  quoted := by
    intro front literal back hsplit
    have hsub := directRow_sublist text m o
    rw [hsplit, List.append_sublist_iff] at hsub
    obtain ⟨before, rest, hrow, -, hrest⟩ := hsub
    obtain ⟨first, later, rfl, hmem, hback⟩ := List.cons_sublist_iff.mp hrest
    obtain ⟨quiet, more, rfl⟩ := List.append_of_mem hmem
    have hwhole : lexemes none (text.drop m)
        = (before ++ quiet) ++ .quoted literal :: (more ++ later) := by
      rw [hrow]
      simp
    have hformed := formed_of_lexemes hwhole
    generalize hbehind : rowText (more ++ later) = behind at hformed
    cases hformed with
    | @quoted q body _ mark _ => exact ⟨q, body ++ [q], rfl, mark, fun _ => by simp⟩
    | @openQuoted q body mark _ =>
      refine ⟨q, body, rfl, mark, ?_⟩
      intro hne
      -- Behind a literal that is not closed, the text ends.
      obtain ⟨lexeme, hlexeme⟩ := List.exists_mem_of_ne_nil back hne
      have hin : lexeme ∈ lexemes none (text.drop m) := by
        rw [hwhole]
        simp [hback.subset hlexeme]
      obtain ⟨x, y, hsplit⟩ := List.append_of_mem (List.mem_append_right more (hback.subset hlexeme))
      rw [hsplit, rowText_append, rowText_cons, List.append_eq_nil_iff, List.append_eq_nil_iff]
        at hbehind
      exact absurd hbehind.2.1 (text_ne_nil_of_mem_lexemes hin)
  noComment := fun _ => not_isComment_of_mem_directRow

theorem isQuote_of_isValueQuote {q : Char} (h : isValueQuote q = true) : isQuote q = true := by
  simp only [isValueQuote, Bool.or_eq_true, beq_iff_eq] at h
  rcases h with rfl | rfl <;> decide

theorem isPlain_eq_false {q : Char} (h : isQuote q = true) : isPlain q = false := by
  simp [isPlain, h]

namespace Delimited

variable {row front back : List Lexeme}

theorem right (h : Delimited (front ++ back)) : Delimited back where
  code c hc := h.code c (List.mem_append_right front hc)
  regex text htext := h.regex text (List.mem_append_right front htext)
  quoted before text after hsplit :=
    h.quoted (front ++ before) text after (by rw [hsplit, List.append_assoc])
  noComment lexeme hlexeme := h.noComment lexeme (List.mem_append_right front hlexeme)

/-- Plain text at the head of a row is spelled by characters of code. -/
theorem exists_of_isPlain (h : Delimited row) {run more : Text} (hrun : ∀ c ∈ run, isPlain c = true)
    (htext : rowText row = run ++ more) : ∃ after, row = run.map .code ++ after := by
  induction run generalizing row with
  | nil => exact ⟨row, rfl⟩
  | cons c run ih =>
    obtain ⟨hc, hrest⟩ := List.forall_mem_cons.mp hrun
    cases row with
    | nil => simp at htext
    | cons lexeme row =>
      cases lexeme with
      | code d =>
        obtain ⟨rfl, htail⟩ := List.cons.inj htext
        have hfront : Delimited ([.code d] ++ row) := h
        obtain ⟨after, hafter⟩ := ih hfront.right hrest htail
        exact ⟨after, by rw [hafter, List.map_cons, List.cons_append]⟩
      | regex text =>
        obtain ⟨rest, rfl⟩ := h.regex text List.mem_cons_self
        obtain ⟨rfl, -⟩ := List.cons.inj htext
        cases hc
      | quoted text =>
        obtain ⟨q, rest, rfl, hq, -⟩ := h.quoted [] text row rfl
        obtain ⟨rfl, -⟩ := List.cons.inj htext
        rw [isPlain_eq_false hq] at hc
        cases hc
      | comment text => exact absurd (h.noComment _ List.mem_cons_self) (by simp [Lexeme.isComment])

/-- A quote at the head of a row begins a quoted literal. -/
theorem exists_of_isQuote (h : Delimited row) {q : Char} {more : Text} (hq : isQuote q = true)
    (htext : rowText row = q :: more) :
    ∃ rest after, row = .quoted (q :: rest) :: after ∧ more = rest ++ rowText after
      ∧ (after ≠ [] → rest.getLast? = some q) := by
  cases row with
  | nil => cases htext
  | cons lexeme after =>
    cases lexeme with
    | code d =>
      obtain ⟨rfl, -⟩ := List.cons.inj htext
      rw [h.code d List.mem_cons_self] at hq
      cases hq
    | regex text =>
      obtain ⟨rest, rfl⟩ := h.regex text List.mem_cons_self
      obtain ⟨rfl, -⟩ := List.cons.inj htext
      cases hq
    | comment text => exact absurd (h.noComment _ List.mem_cons_self) (by simp [Lexeme.isComment])
    | quoted text =>
      obtain ⟨q', rest, rfl, -, hlast⟩ := h.quoted [] text after rfl
      obtain ⟨rfl, hmore⟩ := List.cons.inj htext
      exact ⟨rest, after, rfl, hmore.symm, hlast⟩

end Delimited

/-! ### Occurrences that begin in code

A key that begins in code stays in code up to its quote, since no character of it opens a literal.
The quote then opens one, and the value lies in that.
-/

/-- What is asked of a key: plain characters, the first of which is part of a word. -/
structure IsKey (key : Text) : Prop where
  plain : ∀ c ∈ key, isPlain c = true
  word : key.head?.any isWordChar = true

theorem IsKey.plain_gap {key gap : Text} (h : IsKey key) (hgap : ∀ c ∈ gap, isBlank c = true) :
    ∀ c ∈ key ++ ':' :: gap, isPlain c = true := by
  intro c hc
  simp only [List.mem_append, List.mem_cons] at hc
  rcases hc with hc | rfl | hc
  · exact h.plain c hc
  · decide
  · exact isPlain_of_isBlank (hgap c hc)

/-- A key is found only where no word goes on before it. -/
theorem breaks_of_match? {key pre more : Text} {found : Match} (hkey : IsKey key)
    (h : (Pattern.key key).match? ((Cursor.ofText (pre ++ more)).skip pre.length) = some found) :
    Breaks pre := by
  obtain ⟨first, rest, rfl, hword⟩ := Pattern.exists_cons_of_head?_any hkey.word
  obtain ⟨hboundary, gap, q, body, q', behind, hrest, -⟩ := Pattern.match?_key.mp h
  have hbefore : ((Cursor.ofText (pre ++ more)).skip pre.length).before = pre.getLast? := by
    rw [before_skip_left rfl]
    exact Option.or_none
  rw [isWordBoundary, hrest, hbefore] at hboundary
  intro c hc
  rw [hc] at hboundary
  simpa [hword] using hboundary

/-- A value that is read where a literal begins ends at the first quote, and there is one at the end of
the literal. -/
theorem length_value_lt {q q' : Char} {body more rest : Text} {after : List Lexeme}
    (hq : isValueQuote q = true) (hbody : ∀ c ∈ body, isValueQuote c = false)
    (hlast : after ≠ [] → rest.getLast? = some q)
    (htext : body ++ q' :: more = rest ++ rowText after) : body.length < rest.length := by
  by_contra hshort
  have hwhole : rest <+: body ++ q' :: more := ⟨rowText after, htext.symm⟩
  have hinside : rest <+: body :=
    List.prefix_of_prefix_length_le hwhole (List.prefix_append _ _) (Nat.not_lt.mp hshort)
  cases after with
  | nil =>
    have hlength := congrArg List.length htext
    simp at hlength
    omega
  | cons lexeme after =>
    have hmem := List.mem_of_getLast? (hlast (List.cons_ne_nil _ _))
    rw [hbody q (hinside.subset hmem)] at hq
    cases hq

/-- An occurrence that begins in code has all of its key in code, and ends within the literal that its
value begins with. -/
theorem Delimited.exists_literal {key : Text} {front back : List Lexeme} {c : Char} {found : Match}
    (h : Delimited (front ++ .code c :: back)) (hkey : IsKey key)
    (hmatch : (Pattern.key key).match? ((Cursor.ofText (rowText (front ++ .code c :: back))).skip
      (rowText front).length) = some found) :
    ∃ gap text more, .code c :: back = (key ++ ':' :: gap).map .code ++ .quoted text :: more
      ∧ (∀ d ∈ gap, isBlank d = true) ∧ Breaks (rowText front)
      ∧ found.text.length ≤ (key ++ ':' :: gap).length + text.length := by
  rw [rowText_append] at hmatch
  have hbreaks := breaks_of_match? hkey hmatch
  obtain ⟨-, gap, q, body, q', more, hrest, hgap, hq, -, hbody, -, rfl⟩ :=
    Pattern.match?_key.mp hmatch
  rw [Cursor.rest_skip, Cursor.ofText, List.drop_left] at hrest
  have hsplit : rowText (.code c :: back)
      = (key ++ ':' :: gap) ++ q :: (body ++ q' :: more) := by simpa using hrest
  obtain ⟨after, hafter⟩ := h.right.exists_of_isPlain (hkey.plain_gap hgap) hsplit
  have hthere := h.right
  rw [hafter] at hthere hsplit
  rw [rowText_append, rowText_map_code] at hsplit
  obtain ⟨rest, behind, rfl, hvalue, hlast⟩ :=
    hthere.right.exists_of_isQuote (isQuote_of_isValueQuote hq) (List.append_cancel_left hsplit)
  have hlt := length_value_lt hq hbody hlast hvalue
  refine ⟨gap, q :: rest, behind, hafter, hgap, hbreaks, ?_⟩
  simp only [List.length_append, List.length_cons, List.length_nil]
  omega

/-- Where a key begins in a quoted literal, there is a colon in the literal. -/
theorem Delimited.colon_mem {key text more : Text} {front back : List Lexeme} {n : Nat}
    (h : Delimited (front ++ .quoted text :: back)) (hkey : ∀ c ∈ key, isPlain c = true)
    (hlo : (rowText front).length ≤ n) (hhi : n < (rowText front).length + text.length)
    (hrest : (rowText (front ++ .quoted text :: back)).drop n = key ++ ':' :: more) :
    ':' ∈ text := by
  -- The literal does not end within the key, for its last character is a quote.
  have hend : rowText back ≠ [] → ¬ text.drop (n - (rowText front).length) <+: key := by
    intro hne hinside
    obtain ⟨q, rest, rfl, hq, hlast⟩ := h.quoted front text back rfl
    have hback : back ≠ [] := by
      rintro rfl
      exact hne rfl
    have hmem : q ∈ (q :: rest).drop (n - (rowText front).length) := by
      refine List.mem_of_getLast? ?_
      rw [List.getLast?_drop, if_neg (by omega), List.getLast?_cons, hlast hback, Option.getD_some]
    have hplain := hkey q (hinside.subset hmem)
    rw [isPlain_eq_false hq] at hplain
    cases hplain
  have hinside : n < (rowText front).length + (Lexeme.quoted text).text.length := hhi
  rw [drop_rowText hlo hinside, Lexeme.text] at hrest
  rcases List.append_eq_append_iff.mp hrest with ⟨t, hinside, hback⟩ | ⟨t, htext, hback⟩
  · exact absurd ⟨t, hinside.symm⟩ (hend (by rw [hback]; simp))
  · cases t with
    | nil =>
      rw [List.append_nil] at htext
      rw [List.nil_append] at hback
      exact absurd (htext ▸ List.prefix_rfl) (hend (by rw [← hback]; simp))
    | cons d t =>
      obtain ⟨rfl, -⟩ := List.cons.inj hback
      have hmem : ':' ∈ text.drop (n - (rowText front).length) := by simp [htext]
      exact List.mem_of_mem_drop hmem

end GroqSnippets
