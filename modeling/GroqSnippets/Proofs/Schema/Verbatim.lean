/-
Values between quotes.

Two notions of a string meet where a value is read.  The scan closes a literal at the quote that opens
it; the pattern of a value takes either kind of quote for the end.  They agree on a body without quotes,
and such a body is read as it stands.  A body with the other kind of quote in it is cut off there.

The pattern looks through the direct text of a block, and what it finds first need not be the key of the
block.  But a key that stands once in the code, while no other literal has a colon in it, is the one that
is found, unless a regex literal is in the way.  The search for a type starts behind the name, and the
occurrence of the name ends before the type begins or behind its literal.
-/
import GroqSnippets.Proofs.Schema.Occurrence

namespace GroqSnippets

/-! ### A key that stands once

A search for a key looks at the direct text and not at its lexemes, so it may also stop within a
literal, where a colon stands.  Only the literal of the key itself may have one.
-/

/-- The places of a row where a key with its colon stands in code and no word goes on before it: how
many lexemes stand before it. -/
def keyPlaces (key : Text) (row : List Lexeme) : List Nat :=
  (List.range (row.length + 1)).filter fun i =>
    ((key ++ [':']).map Lexeme.code).isPrefixOf (row.drop i)
      && !(rowText (row.take i)).getLast?.any isWordChar

theorem mem_keyPlaces {key : Text} {front back : List Lexeme} :
    front.length ∈ keyPlaces key (front ++ ((key ++ [':']).map .code ++ back))
      ↔ Breaks (rowText front) := by
  have hlt : front.length < (front ++ ((key ++ [':']).map Lexeme.code ++ back)).length + 1 := by
    simp only [List.length_append]
    omega
  rw [keyPlaces, List.mem_filter, List.mem_range, List.drop_left, List.take_left]
  simp only [hlt, true_and, Bool.and_eq_true, List.isPrefixOf_iff_prefix, List.prefix_append,
    Bool.not_eq_true']
  constructor
  · intro hfree c hc
    rw [hc] at hfree
    exact hfree
  · intro hbreaks
    cases hlast : (rowText front).getLast? with
    | none => rfl
    | some c => exact hbreaks c hlast

/-- Whether a lexeme is a string or template literal with a colon in it. -/
def Lexeme.quotesColon : Lexeme → Bool
  | quoted text => text.contains ':'
  | _ => false

def Lexeme.isRegex : Lexeme → Bool
  | regex _ => true
  | _ => false

/-- Whether no regex literal of a row may begin a key. -/
def QuietFor (key : Text) (row : List Lexeme) : Prop :=
  ∀ lexeme ∈ row, lexeme.isRegex = true → lexeme.mayBegin key = false

instance (key : Text) (row : List Lexeme) : Decidable (QuietFor key row) :=
  inferInstanceAs (Decidable (∀ lexeme ∈ row, lexeme.isRegex = true → lexeme.mayBegin key = false))

/-- Whether a key stands once in the code of a row, with a quoted literal for its value, and there is no
colon in any other string or template literal. -/
structure KeyedOnce (key : Text) (row front : List Lexeme) (gap : Text) (q : Char) (body : Text)
    (back : List Lexeme) : Prop where
  spelled : row = front ++ ((key ++ ':' :: gap).map .code ++ .quoted (q :: (body ++ [q])) :: back)
  blanks : ∀ c ∈ gap, isBlank c = true
  quote : isValueQuote q = true
  /-- The key stands nowhere else. -/
  once : keyPlaces key row = [front.length]
  /-- The other literals have no colon. -/
  others : ∀ lexeme ∈ front ++ back, lexeme.quotesColon = false

instance (key : Text) (row front : List Lexeme) (gap : Text) (q : Char) (body : Text)
    (back : List Lexeme) : Decidable (KeyedOnce key row front gap q body back) :=
  decidable_of_iff
    (row = front ++ ((key ++ ':' :: gap).map .code ++ .quoted (q :: (body ++ [q])) :: back)
      ∧ gap.all isBlank = true ∧ isValueQuote q = true
      ∧ keyPlaces key row = [front.length] ∧ ∀ lexeme ∈ front ++ back, lexeme.quotesColon = false)
    ⟨fun ⟨spelled, blanks, quote, once, others⟩ =>
        ⟨spelled, List.all_eq_true.mp blanks, quote, once, others⟩,
      fun ⟨spelled, blanks, quote, once, others⟩ =>
        ⟨spelled, List.all_eq_true.mpr blanks, quote, once, others⟩⟩

/-- What is no code stands before code that follows it. -/
theorem exists_of_append_code {a b more : List Lexeme} {lexeme : Lexeme} {run : Text}
    (hcode : ∀ c, lexeme ≠ .code c) (h : a ++ run.map .code = b ++ lexeme :: more) :
    ∃ rest, a = b ++ lexeme :: rest := by
  have hnotMem : lexeme ∉ run.map Lexeme.code := by
    intro hmem
    obtain ⟨c, -, rfl⟩ := List.mem_map.mp hmem
    exact hcode c rfl
  rcases List.append_eq_append_iff.mp h with ⟨t, -, htail⟩ | ⟨t, rfl, htail⟩
  · exact absurd (by simp [htail]) hnotMem
  · cases t with
    | nil =>
      rw [List.nil_append] at htail
      exact absurd (by simp [← htail]) hnotMem
    | cons first t =>
      obtain ⟨rfl, -⟩ := List.cons.inj htail
      exact ⟨t, rfl⟩

/-- Before blanks there is one colon only that they follow. -/
theorem eq_nil_of_gap_eq {gap gap' : Text} {run : List Lexeme}
    (hgap : ∀ c ∈ gap, isBlank c = true)
    (h : (':' :: gap).map Lexeme.code = run ++ (':' :: gap').map .code) : run = [] := by
  cases run with
  | nil => rfl
  | cons first run =>
    obtain ⟨-, htail⟩ := List.cons.inj h
    have hmem : Lexeme.code ':' ∈ gap.map Lexeme.code := by simp [htail]
    obtain ⟨c, hc, hcolon⟩ := List.mem_map.mp hmem
    have hblank := hgap c hc
    rw [Lexeme.code.inj hcolon] at hblank
    exact absurd hblank (by decide)

theorem eq_of_spelled_eq {a b : List Lexeme} {key other gap gap' : Text}
    (h : a ++ (other ++ ':' :: gap').map .code = b ++ (key ++ ':' :: gap).map .code)
    (hgap' : ∀ c ∈ gap', isBlank c = true) (hgap : ∀ c ∈ gap, isBlank c = true)
    (hlength : other.length = key.length) : other = key := by
  rw [List.map_append, List.map_append, ← List.append_assoc, ← List.append_assoc] at h
  have hfront : a ++ other.map Lexeme.code = b ++ key.map .code := by
    rcases List.append_eq_append_iff.mp h with ⟨t, hfront, htail⟩ | ⟨t, hfront, htail⟩
    · rw [eq_nil_of_gap_eq hgap' htail, List.append_nil] at hfront
      exact hfront.symm
    · rw [eq_nil_of_gap_eq hgap htail, List.append_nil] at hfront
      exact hfront
  have hkeys := (List.append_inj' hfront (by simp [hlength])).2
  exact List.map_injective_iff.mpr (fun _ _ => Lexeme.code.inj) hkeys

/-- A lexeme of a row that is split elsewhere is one of the others, or the rows are split alike. -/
theorem mem_or_eq_of_split {α : Type} {a b front back : List α} {x y : α}
    (h : a ++ x :: b = front ++ y :: back) : x ∈ front ++ back ∨ a = front ∧ x = y := by
  rcases List.append_eq_append_iff.mp h with ⟨t, rfl, htail⟩ | ⟨t, rfl, htail⟩
  · cases t with
    | nil => exact .inr ⟨by simp, (List.cons.inj htail).1⟩
    | cons z t =>
      obtain ⟨rfl, -⟩ := List.cons.inj htail
      simp
  · cases t with
    | nil => exact .inr ⟨by simp, (List.cons.inj htail).1.symm⟩
    | cons z t =>
      obtain ⟨-, rfl⟩ := List.cons.inj htail
      simp

theorem takeWhile_of_isValue {body : Text} (h : body.IsValue) :
    body.takeWhile (!isValueQuote ·) = body := by
  refine List.takeWhile_eq_self_iff.mpr fun c hc => ?_
  simp [h.not_isValueQuote c hc]

/-- In the text of a literal and what follows it, a quote comes behind the part of the body without
quotes: one of the body, or the one that closes the literal. -/
theorem exists_value_closed (body more : Text) {q : Char} (hq : isValueQuote q = true) :
    ∃ q' behind, isValueQuote q' = true
      ∧ body ++ q :: more = body.takeWhile (!isValueQuote ·) ++ q' :: behind := by
  obtain ⟨beyond, hbody, -, hstop⟩ :=
    takeWhile_eq_iff.mp (rfl : body.takeWhile (!isValueQuote ·) = body.takeWhile (!isValueQuote ·))
  cases beyond with
  | nil => exact ⟨q, more, hq, by rw [← List.append_nil (body.takeWhile _), ← hbody]⟩
  | cons d beyond =>
    refine ⟨d, beyond ++ q :: more, by simpa using hstop d rfl, ?_⟩
    conv_lhs => rw [hbody]
    rw [List.append_assoc, List.cons_append]

namespace KeyedOnce

variable {key gap body : Text} {row front back : List Lexeme} {q : Char}

theorem rowText_eq (h : KeyedOnce key row front gap q body back) :
    rowText row = (rowText front ++ (key ++ ':' :: gap)) ++ q :: (body ++ q :: rowText back) := by
  rw [h.spelled, rowText_append, rowText_append, rowText_map_code, rowText_cons, Lexeme.text]
  simp

theorem breaks (h : KeyedOnce key row front gap q body back) : Breaks (rowText front) := by
  have hmem : front.length ∈ keyPlaces key row := by
    rw [h.once]
    exact List.mem_cons_self
  have hsplit : row = front ++ ((key ++ [':']).map .code
      ++ (gap.map .code ++ .quoted (q :: (body ++ [q])) :: back)) := by
    rw [h.spelled]
    simp
  rw [hsplit] at hmem
  exact mem_keyPlaces.mp hmem

theorem eq_front (h : KeyedOnce key row front gap q body back) {front' back' : List Lexeme}
    (hsplit : row = front' ++ ((key ++ [':']).map .code ++ back')) (hbreaks : Breaks (rowText front')) :
    front' = front := by
  have hmem : front'.length ∈ keyPlaces key row := by
    rw [hsplit]
    exact mem_keyPlaces.mpr hbreaks
  rw [h.once, List.mem_singleton] at hmem
  have hboth := h.spelled
  rw [hsplit] at hboth
  exact (List.append_inj hboth hmem).1

/-- An occurrence of any key that begins in a quoted literal begins within the literal of the key,
behind its quote. -/
theorem inside_of_quoted (h : KeyedOnce key row front gap q body back) (hrow : Delimited row)
    {other text more : Text} (hother : IsKey other) {before after : List Lexeme} {n : Nat}
    (hsplit : row = before ++ .quoted text :: after) (hlo : (rowText before).length ≤ n)
    (hhi : n < (rowText before).length + text.length)
    (hrest : (rowText row).drop n = other ++ ':' :: more) :
    (rowText front ++ (key ++ ':' :: gap)).length < n
      ∧ n < (rowText front ++ (key ++ ':' :: gap)).length + (body.length + 2) := by
  have hdelimited := hrow
  rw [hsplit] at hdelimited
  have hcolon := hdelimited.colon_mem hother.plain hlo hhi (hsplit ▸ hrest)
  have hboth : before ++ .quoted text :: after
      = (front ++ (key ++ ':' :: gap).map .code) ++ .quoted (q :: (body ++ [q])) :: back := by
    rw [← hsplit, h.spelled, List.append_assoc]
  rcases mem_or_eq_of_split hboth with hamong | ⟨rfl, hsame⟩
  · -- In the other literals there is no colon.
    have hothers : .quoted text ∈ front ++ back := by
      simp only [List.mem_append, List.mem_map, reduceCtorEq, and_false, exists_const,
        or_false] at hamong ⊢
      exact hamong
    have hfree := h.others _ hothers
    rw [Lexeme.quotesColon, List.contains_iff_mem.mpr hcolon] at hfree
    cases hfree
  obtain rfl := Lexeme.quoted.inj hsame
  rw [rowText_append, rowText_map_code] at hlo hhi
  have hliteral : (q :: (body ++ [q])).length = body.length + 2 := by simp
  rw [hliteral] at hhi
  refine ⟨Nat.lt_of_le_of_ne hlo ?_, hhi⟩
  -- At its quote no key begins.
  rintro rfl
  rw [h.rowText_eq, List.drop_left] at hrest
  obtain ⟨first, rest, rfl, -⟩ := Pattern.exists_cons_of_head?_any hother.word
  obtain ⟨rfl, -⟩ := List.cons.inj hrest
  have hplain := hother.plain q List.mem_cons_self
  rw [isPlain_eq_false (isQuote_of_isValueQuote h.quote)] at hplain
  cases hplain

/-- An occurrence of any key begins in code, or within the literal. -/
theorem begins_cases (h : KeyedOnce key row front gap q body back) (hrow : Delimited row)
    {other : Text} (hother : IsKey other) (hquiet : QuietFor other row) {n : Nat} {found : Match}
    (hmatch : (Pattern.key other).match? ((Cursor.ofText (rowText row)).skip n) = some found) :
    (∃ before c after, row = before ++ .code c :: after ∧ n = (rowText before).length)
      ∨ (rowText front ++ (key ++ ':' :: gap)).length < n
        ∧ n < (rowText front ++ (key ++ ':' :: gap)).length + (body.length + 2) := by
  obtain ⟨before, lexeme, after, hsplit, -, -, hlo, hhi, hbegins⟩ := exists_begins hmatch
  have hmem : lexeme ∈ row := by simp [hsplit]
  cases lexeme with
  | code c =>
    refine .inl ⟨before, c, after, hsplit, ?_⟩
    rw [Lexeme.text, List.length_singleton] at hhi
    omega
  | comment text => exact absurd (hrow.noComment _ hmem) (by simp [Lexeme.isComment])
  | regex text =>
    have hmay := mayBegin_of_beginsKey (by simp) rfl hbegins
    rw [hquiet _ hmem rfl] at hmay
    cases hmay
  | quoted text =>
    obtain ⟨-, gap', q', body', q'', more, hrest, -⟩ := Pattern.match?_key.mp hmatch
    rw [Cursor.rest_skip, Cursor.ofText] at hrest
    exact .inr (h.inside_of_quoted hrow hother hsplit hlo hhi hrest)

theorem eq_or_inside (h : KeyedOnce key row front gap q body back) (hrow : Delimited row)
    (hkey : IsKey key) (hquiet : QuietFor key row) {n : Nat} {found : Match}
    (hmatch : (Pattern.key key).match? ((Cursor.ofText (rowText row)).skip n) = some found) :
    n = (rowText front).length
      ∨ (rowText front ++ (key ++ ':' :: gap)).length < n
        ∧ n < (rowText front ++ (key ++ ':' :: gap)).length + (body.length + 2) := by
  rcases h.begins_cases hrow hkey hquiet hmatch with ⟨before, c, after, rfl, rfl⟩ | hinside
  · obtain ⟨gap', text, more, hcode, -, hbreaks, -⟩ := hrow.exists_literal hkey hmatch
    have hsplit : before ++ .code c :: after = before ++ ((key ++ [':']).map .code
        ++ (gap'.map .code ++ .quoted text :: more)) := by
      rw [hcode]
      simp
    exact .inl (by rw [h.eq_front hsplit hbreaks])
  · exact .inr hinside

/-! ### The value that is read

A value ends at the first quote of either kind.  When the literal is quoted by one kind and holds
the other, that is before the end of the literal.
-/

theorem exists_match? (h : KeyedOnce key row front gap q body back) (hkey : IsKey key)
    (hvalue : body.takeWhile (!isValueQuote ·) ≠ []) :
    ∃ found, (Pattern.key key).match? ((Cursor.ofText (rowText row)).skip (rowText front).length)
        = some found
      ∧ found.value = some (body.takeWhile (!isValueQuote ·)) := by
  obtain ⟨first, rest, rfl, hword⟩ := Pattern.exists_cons_of_head?_any hkey.word
  obtain ⟨q', behind, hq', hclosed⟩ := exists_value_closed body (rowText back) h.quote
  have hplace : (Cursor.ofText (rowText row)).rest = rowText front ++ first :: (rest
      ++ ':' :: (gap ++ q :: (body.takeWhile (!isValueQuote ·) ++ q' :: behind))) := by
    rw [Cursor.ofText, h.rowText_eq, hclosed]
    simp
  have hthere : ((Cursor.ofText (rowText row)).skip (rowText front).length).rest
      = (first :: rest)
        ++ ':' :: (gap ++ q :: (body.takeWhile (!isValueQuote ·) ++ q' :: behind)) := by
    rw [Cursor.rest_skip, hplace, List.drop_left]
    rfl
  have hbare : ∀ c ∈ body.takeWhile (!isValueQuote ·), isValueQuote c = false := by
    intro c hc
    simpa using List.mem_takeWhile_imp hc
  have hmatch := Pattern.match?_key.mpr
    ⟨Pattern.isWordBoundary_skip hplace hword (.inr rfl) h.breaks, gap, q, _, q', behind, hthere,
      h.blanks, h.quote, hvalue, hbare, hq', rfl⟩
  exact ⟨_, hmatch, rfl⟩

theorem exists_first? (h : KeyedOnce key row front gap q body back) (hrow : Delimited row)
    (hkey : IsKey key) (hquiet : QuietFor key row)
    (hvalue : body.takeWhile (!isValueQuote ·) ≠ []) {n : Nat} (hn : n ≤ (rowText front).length) :
    ∃ found, (Pattern.key key).first? ((Cursor.ofText (rowText row)).skip n) = some found
      ∧ found.value = some (body.takeWhile (!isValueQuote ·)) := by
  obtain ⟨found, hmatch, hread⟩ := h.exists_match? hkey hvalue
  refine ⟨found, Pattern.first?_eq_some_iff.mpr ⟨(rowText front).length - n, ?_, ?_, ?_⟩, hread⟩
  · rw [Cursor.rest_skip, Cursor.ofText, h.rowText_eq, List.length_drop, List.length_append,
      List.length_append]
    omega
  · rw [Cursor.skip_skip, Nat.add_sub_of_le hn]
    exact hmatch
  · intro k hk
    rw [Cursor.skip_skip, Option.eq_none_iff_forall_ne_some]
    intro found hfound
    have hplaces := h.eq_or_inside hrow hkey hquiet hfound
    rw [List.length_append] at hplaces
    omega

theorem firstValue? (h : KeyedOnce key row front gap q body back) (hrow : Delimited row)
    (hkey : IsKey key) (hquiet : QuietFor key row)
    (hvalue : body.takeWhile (!isValueQuote ·) ≠ []) :
    (Pattern.key key).firstValue? (rowText row) = some (body.takeWhile (!isValueQuote ·)) := by
  obtain ⟨found, hfound, hread⟩ := h.exists_first? hrow hkey hquiet hvalue (Nat.zero_le _)
  rw [Pattern.firstValue?]
  exact Option.bind_eq_some_iff.mpr ⟨found, hfound, hread⟩

/-- What is read is the body just when no quote stands in it. -/
theorem firstValue?_eq_body_iff (h : KeyedOnce key row front gap q body back) (hrow : Delimited row)
    (hkey : IsKey key) (hquiet : QuietFor key row) :
    (Pattern.key key).firstValue? (rowText row) = some body ↔ body.IsValue := by
  constructor
  · exact Pattern.isValue_of_firstValue?
  · intro hbody
    have hwhole := takeWhile_of_isValue hbody
    rw [h.firstValue? hrow hkey hquiet (by rw [hwhole]; exact hbody.nonempty), hwhole]

/-! ### The type behind a name

Name and type are searched one after the other, so the occurrence of the one has to end before the
other begins, in whichever order they stand.
-/

/-- An occurrence of another key of the same length that begins in code ends before the key begins, or
behind the literal. -/
theorem apart_of_code (h : KeyedOnce key row front gap q body back) {other gap' text : Text}
    {before more : List Lexeme} (hgap' : ∀ c ∈ gap', isBlank c = true)
    (hlength : other.length = key.length) (hne : other ≠ key)
    (hsplit : row = before ++ ((other ++ ':' :: gap').map .code ++ .quoted text :: more)) :
    (rowText before).length + ((other ++ ':' :: gap').length + text.length)
        ≤ (rowText front).length
      ∨ (rowText front ++ (key ++ ':' :: gap)).length + (body.length + 2)
        ≤ (rowText before).length := by
  have hboth : (before ++ (other ++ ':' :: gap').map .code) ++ .quoted text :: more
      = (front ++ (key ++ ':' :: gap).map .code) ++ .quoted (q :: (body ++ [q])) :: back := by
    rw [List.append_assoc, List.append_assoc, ← hsplit, ← h.spelled]
  have hapart : before ++ (other ++ ':' :: gap').map .code
      ≠ front ++ (key ++ ':' :: gap).map .code := by
    intro hsame
    exact hne (eq_of_spelled_eq hsame hgap' h.blanks hlength)
  -- The literal of the other key comes before the key, or behind its literal, or is the same.
  rcases List.append_eq_append_iff.mp hboth with ⟨t, hfront, htail⟩ | ⟨t, hbefore, htail⟩
  · cases t with
    | nil => exact absurd (by rw [hfront, List.append_nil]) hapart
    | cons lexeme t =>
      obtain ⟨rfl, -⟩ := List.cons.inj htail
      obtain ⟨rest, rfl⟩ := exists_of_append_code (by simp) hfront
      refine .inl ?_
      simp only [rowText_append, rowText_map_code, rowText_cons, Lexeme.text, List.length_append]
      omega
  · cases t with
    | nil => exact absurd (by rw [hbefore, List.append_nil]) hapart
    | cons lexeme t =>
      obtain ⟨rfl, -⟩ := List.cons.inj htail
      obtain ⟨rest, rfl⟩ := exists_of_append_code (by simp) hbefore
      refine .inr ?_
      simp only [rowText_append, rowText_map_code, rowText_cons, Lexeme.text,
        List.length_append, List.length_cons, List.length_nil]
      omega

/-- An occurrence that begins within a literal without quotes ends behind it, for its value begins at
the quote that closes the literal, or further on. -/
theorem apart_of_inside (h : KeyedOnce key row front gap q body back) (hbody : body.IsValue)
    {other : Text} {n : Nat} {found : Match}
    (hlo : (rowText front ++ (key ++ ':' :: gap)).length < n)
    (hhi : n < (rowText front ++ (key ++ ':' :: gap)).length + (body.length + 2))
    (hmatch : (Pattern.key other).match? ((Cursor.ofText (rowText row)).skip n) = some found) :
    (rowText front ++ (key ++ ':' :: gap)).length + (body.length + 2)
      ≤ n + found.text.length := by
  obtain ⟨-, gap', q₁, value, q₂, more, hrest, -, hq₁, -, -, -, rfl⟩ :=
    Pattern.match?_key.mp hmatch
  obtain ⟨j, rfl⟩ := Nat.exists_eq_add_of_lt hlo
  have hthere : body.drop j ++ q :: rowText back
      = (other ++ ':' :: gap') ++ q₁ :: (value ++ q₂ :: more) := by
    rw [Cursor.rest_skip, Cursor.ofText, h.rowText_eq, Nat.add_assoc,
      List.drop_length_add_append, List.drop_succ_cons,
      List.drop_append_of_le_length (by omega)] at hrest
    simpa using hrest
  have hlong : (body.drop j).length ≤ (other ++ ':' :: gap').length := by
    rcases List.append_eq_append_iff.mp hthere with ⟨t, hkey, -⟩ | ⟨t, hbare, hquote⟩
    · rw [hkey, List.length_append]
      omega
    · cases t with
      | nil => rw [hbare, List.append_nil]
      | cons d t =>
        obtain ⟨rfl, -⟩ := List.cons.inj hquote
        have hmem : q₁ ∈ body.drop j := by simp [hbare]
        rw [hbody.not_isValueQuote q₁ (List.mem_of_mem_drop hmem)] at hq₁
        cases hq₁
  simp only [List.length_drop, List.length_append, List.length_cons] at hlong hhi ⊢
  omega

theorem apart (h : KeyedOnce key row front gap q body back) (hrow : Delimited row) {other : Text}
    (hother : IsKey other) (hquiet : QuietFor other row) (hlength : other.length = key.length)
    (hne : other ≠ key) (hbody : body.IsValue) {n : Nat} {found : Match}
    (hmatch : (Pattern.key other).match? ((Cursor.ofText (rowText row)).skip n) = some found) :
    n + found.text.length ≤ (rowText front).length
      ∨ (rowText front ++ (key ++ ':' :: gap)).length + (body.length + 2)
        ≤ n + found.text.length := by
  rcases h.begins_cases hrow hother hquiet hmatch with ⟨before, c, after, rfl, rfl⟩ | ⟨hlo, hhi⟩
  · obtain ⟨gap', text, more, hcode, hgap', -, hle⟩ := hrow.exists_literal hother hmatch
    have hsplit : before ++ .code c :: after
        = before ++ ((other ++ ':' :: gap').map .code ++ .quoted text :: more) := by rw [hcode]
    rcases h.apart_of_code hgap' hlength hne hsplit with hbefore | hbehind
    · exact .inl (Nat.le_trans (Nat.add_le_add_left hle _) hbefore)
    · exact .inr (Nat.le_trans hbehind (Nat.le_add_right _ _))
  · exact .inr (h.apart_of_inside hbody hlo hhi hmatch)

/-- The type that belongs to a name is found where it stands, whether the name comes before it or
behind it. -/
theorem exists_behind (h : KeyedOnce key row front gap q body back) (hrow : Delimited row)
    (hkey : IsKey key) (hquiet : QuietFor key row) {other : Text} (hother : IsKey other)
    (hquiet' : QuietFor other row) (hlength : other.length = key.length) (hne : other ≠ key)
    (hbody : body.IsValue) {first : Match}
    (hfirst : (Pattern.key other).first? (Cursor.ofText (rowText row)) = some first) :
    ∃ found, ((Pattern.key key).first? first.stop).or
        ((Pattern.key key).first? (Cursor.ofText (rowText row))) = some found
      ∧ found.value = some body := by
  obtain ⟨n, -, hmatch⟩ := exists_skip_of_first? (n := 0) hfirst
  have hstop : first.stop = (Cursor.ofText (rowText row)).skip (n + first.text.length) := by
    rw [Match.stop, Pattern.place_of_match? hmatch, Cursor.skip_skip]
  have hwhole := takeWhile_of_isValue hbody
  have hvalue : body.takeWhile (!isValueQuote ·) ≠ [] := by
    rw [hwhole]
    exact hbody.nonempty
  rw [hstop]
  rcases h.apart hrow hother hquiet' hlength hne hbody hmatch with hbefore | hbehind
  · obtain ⟨found, hfound, hread⟩ := h.exists_first? hrow hkey hquiet hvalue hbefore
    exact ⟨found, by rw [hfound, Option.some_or], by rw [hread, hwhole]⟩
  · obtain ⟨found, hfound, hread⟩ := h.exists_first? hrow hkey hquiet hvalue (Nat.zero_le _)
    have hnone : (Pattern.key key).first?
        ((Cursor.ofText (rowText row)).skip (n + first.text.length)) = none := by
      refine Pattern.first?_eq_none_iff.mpr fun k _ => ?_
      rw [Cursor.skip_skip, Option.eq_none_iff_forall_ne_some]
      intro found hfound
      have hplaces := h.eq_or_inside hrow hkey hquiet hfound
      simp only [List.length_append] at hplaces hbehind
      omega
    exact ⟨found, by rw [hnone, Option.none_or]; exact hfound, by rw [hread, hwhole]⟩

end KeyedOnce

/-! ### Names, types and titles of a block -/

/-- Whether a key stands once in the code of a row, with a quoted literal for its value that has a given
body, while there is no colon in any other string or template literal, and no regex literal may begin
the key. -/
def HasKey (key : Text) (row : List Lexeme) (body : Text) : Prop :=
  QuietFor key row ∧ ∃ front gap q back, KeyedOnce key row front gap q body back

theorem isKey_name : IsKey "name".toList where
  plain := List.all_eq_true.mp (by decide)
  word := by decide

theorem isKey_type : IsKey "type".toList where
  plain := List.all_eq_true.mp (by decide)
  word := by decide

theorem isKey_title : IsKey "title".toList where
  plain := List.all_eq_true.mp (by decide)
  word := by decide

section

variable {row : List Lexeme} {body : Text}

theorem HasKey.firstValue?_eq_body_iff {key : Text} (h : HasKey key row body) (hrow : Delimited row)
    (hkey : IsKey key) : (Pattern.key key).firstValue? (rowText row) = some body ↔ body.IsValue := by
  obtain ⟨hquiet, _, _, _, _, honce⟩ := h
  exact honce.firstValue?_eq_body_iff hrow hkey hquiet

theorem HasKey.firstValue? {key : Text} (h : HasKey key row body) (hrow : Delimited row)
    (hkey : IsKey key) (hvalue : body.takeWhile (!isValueQuote ·) ≠ []) :
    (Pattern.key key).firstValue? (rowText row) = some (body.takeWhile (!isValueQuote ·)) := by
  obtain ⟨hquiet, _, _, _, _, honce⟩ := h
  exact honce.firstValue? hrow hkey hquiet hvalue

theorem HasKey.type_eq (h : HasKey "type".toList row body) (hrow : Delimited row)
    (hquiet : QuietFor "name".toList row) (hbody : body.IsValue) {first : Match}
    (hfirst : namePattern.first? (Cursor.ofText (rowText row)) = some first) :
    ∃ second, (typePattern.first? first.stop).or (typePattern.first? (Cursor.ofText (rowText row)))
        = some second
      ∧ second.value = some body := by
  obtain ⟨hquiet', _, _, _, _, honce⟩ := h
  exact honce.exists_behind hrow isKey_type hquiet' isKey_name hquiet rfl (by decide) hbody hfirst

/-- A name and a type that stand once are read together just when both are values. -/
theorem nameAndType?_eq_iff {name type : Text} (hname : HasKey "name".toList row name)
    (htype : HasKey "type".toList row type) (hrow : Delimited row) :
    nameAndType? (rowText row) = some (name, type) ↔ name.IsValue ∧ type.IsValue := by
  constructor
  · exact isValue_of_nameAndType?
  · rintro ⟨hnamed, htyped⟩
    have hvalue := (hname.firstValue?_eq_body_iff hrow isKey_name).mpr hnamed
    obtain ⟨first, hfirst, hread⟩ := Option.bind_eq_some_iff.mp hvalue
    obtain ⟨second, hsecond, hread'⟩ := htype.type_eq hrow hname.1 htyped hfirst
    exact nameAndType?_eq_some_iff.mpr ⟨first, second, hfirst, hread, hsecond, hread'⟩

/-- What a field takes from the keys that stand once directly in its block. -/
theorem HasKey.values_of_declaredField? {block : Text} {field : Field} (hrow : Delimited row)
    (hdirect : directText block = rowText row) (hfield : declaredField? block = some field) :
    (∀ body, HasKey "title".toList row body →
        (field.title = some body ↔ body.IsValue)
        ∧ (body.takeWhile (!isValueQuote ·) ≠ [] →
            field.title = some (body.takeWhile (!isValueQuote ·))))
      ∧ (∀ body, HasKey "name".toList row body → (field.name = body ↔ body.IsValue))
      ∧ ∀ body, HasKey "type".toList row body → QuietFor "name".toList row →
          (field.type = body ↔ body.IsValue) := by
  obtain ⟨hnamed, htitle, -⟩ := declaredField?_eq_some_iff.mp hfield
  have hname := declaredName?_of_declaredField? hfield
  rw [hdirect] at hnamed htitle
  rw [declaredName?, hdirect] at hname
  refine ⟨?_, ?_, ?_⟩
  · intro body hbody
    rw [htitle]
    exact ⟨hbody.firstValue?_eq_body_iff hrow isKey_title, hbody.firstValue? hrow isKey_title⟩
  · intro body hbody
    rw [← hbody.firstValue?_eq_body_iff hrow isKey_name, ← namePattern, hname, Option.some.injEq]
  · intro body hbody hquiet
    constructor
    · rintro rfl
      exact (isValue_of_nameAndType? hnamed).2
    · intro hvalue
      obtain ⟨first, second, hfirst, -, hsecond, htype⟩ := nameAndType?_eq_some_iff.mp hnamed
      obtain ⟨second', hsecond', hread⟩ := hbody.type_eq hrow hquiet hvalue hfirst
      rw [hsecond] at hsecond'
      obtain rfl := Option.some.inj hsecond'
      exact Option.some.inj (htype.symm.trans hread)

/-- A block declares a field of a name and a type just when the two are read together. -/
theorem exists_declaredField?_iff {block name type : Text} :
    (∃ field, declaredField? block = some field ∧ field.name = name ∧ field.type = type)
      ↔ nameAndType? (directText block) = some (name, type) := by
  constructor
  · rintro ⟨field, hfield, rfl, rfl⟩
    exact (declaredField?_eq_some_iff.mp hfield).1
  · intro hnamed
    let field : Field :=
      { name, type, title := titlePattern.firstValue? (directText block)
        validation := mentionsValidation block }
    have hfield : declaredField? block = some field :=
      declaredField?_eq_some_iff.mpr ⟨hnamed, rfl, rfl, rfl, rfl⟩
    exact ⟨field, hfield, rfl, rfl⟩

end

/-- **Values are taken without their quotes, and as they stand if no quote is in them.**  Where a key
stands once directly in a block, with a quoted literal for its value, the name, type or title of the
field is the body of the literal just when the body is not empty and has neither kind of quote in it.
A title is cut off at the first quote. -/
theorem values_between_quotes {source : Text} {span : Nat × Nat} {o : Nat}
    (hspan : span ∈ fieldPattern.blockSpans source) (hbrace : source.FirstBrace span.1 o) :
    let block := source.slice span.1 span.2
    let row := source.directRow span.1 o
    (∀ field, declaredField? block = some field →
      (∃ complete ∈ (Schema.ofSource source).fields, complete.name = field.name
        ∧ complete.type = field.type ∧ complete.title = field.title)
      ∧ (∀ body, HasKey "title".toList row body →
          (field.title = some body ↔ body.IsValue)
          ∧ (body.takeWhile (!isValueQuote ·) ≠ [] →
              field.title = some (body.takeWhile (!isValueQuote ·))))
      ∧ (∀ body, HasKey "name".toList row body → (field.name = body ↔ body.IsValue))
      ∧ ∀ body, HasKey "type".toList row body → QuietFor "name".toList row →
          (field.type = body ↔ body.IsValue))
    ∧ (∀ body, HasKey "name".toList row body → (declaredName? block = some body ↔ body.IsValue))
    ∧ ∀ name type, HasKey "name".toList row name → HasKey "type".toList row type →
        ((∃ field, declaredField? block = some field ∧ field.name = name ∧ field.type = type)
          ↔ name.IsValue ∧ type.IsValue) := by
  intro block row
  have hrow : Delimited row := delimited_directRow source span.1 o
  have hblock : block ∈ fieldPattern.blocks source := by
    rw [Pattern.blocks_eq_slices]
    exact List.mem_map_of_mem hspan
  have hdirect : directText block = rowText row := by
    obtain ⟨o', hbrace', hslice⟩ := firstBrace_of_mem_blockSpans hspan
    obtain rfl := hbrace.unique hbrace'
    rw [← directText_of_firstBrace hbrace, ← hslice]
  refine ⟨?_, ?_, ?_⟩
  · intro field hfield
    exact ⟨exists_mem_fields_of_declaredField? hblock hfield,
      HasKey.values_of_declaredField? hrow hdirect hfield⟩
  · intro body hbody
    rw [declaredName?, hdirect]
    exact hbody.firstValue?_eq_body_iff hrow isKey_name
  · intro name type hname htype
    rw [exists_declaredField?_iff, hdirect]
    exact nameAndType?_eq_iff hname htype hrow

/-- A colon in a title is read with it, and so are blanks and brackets. -/
theorem values_between_quotes_of_three :
    let source : Text :=
      "defineField(".toList ++ '{' :: "title:\"A: (b\",name:'c',type: \"d\"".toList ++ ['}', ')']
    let row := source.directRow 0 12
    (0, 46) ∈ fieldPattern.blockSpans source ∧ source.FirstBrace 0 12
    ∧ HasKey "title".toList row "A: (b".toList
    ∧ ∃ field, declaredField? (source.slice 0 46) = some field
      ∧ field.title = some "A: (b".toList := by
  intro source row
  have hspan : (0, 46) ∈ fieldPattern.blockSpans source := by decide +kernel
  have hbrace : source.FirstBrace 0 12 := ⟨by decide +kernel, by decide +kernel⟩
  have htitle : HasKey "title".toList row "A: (b".toList :=
    ⟨by decide +kernel, [], [], '"', row.drop 7, by decide +kernel⟩
  have hbody : Text.IsValue "A: (b".toList := ⟨by decide, by decide, by decide⟩
  obtain ⟨field, hfield⟩ := Option.isSome_iff_exists.mp
    (by decide +kernel : (declaredField? (source.slice 0 46)).isSome)
  have hvalues := values_between_quotes hspan hbrace
  obtain ⟨-, htitled, -⟩ := hvalues.1 field hfield
  exact ⟨hspan, hbrace, htitle, field, hfield, (htitled _ htitle).1.mpr hbody⟩

/-- A literal with the other kind of quote in it is cut off there, for each of the three keys. -/
theorem values_cut_at_quote :
    let source : Text :=
      "defineField(".toList ++ '{' :: "name:\"a'b\",type:\"c'd\",title:\"e'f\"".toList ++ ['}', ')']
    let row := source.directRow 0 12
    HasKey "name".toList row "a'b".toList ∧ HasKey "type".toList row "c'd".toList
    ∧ HasKey "title".toList row "e'f".toList
    ∧ (Schema.ofSource source).fields.map (fun field => (field.name, field.type, field.title))
      = [("a".toList, "c".toList, some "e".toList)] := by
  intro source row
  exact ⟨⟨by decide +kernel, [], [], '"', row.drop 6, by decide +kernel⟩,
    ⟨by decide +kernel, row.take 7, [], '"', row.drop 13, by decide +kernel⟩,
    ⟨by decide +kernel, row.take 14, [], '"', [], by decide +kernel⟩, by decide +kernel⟩

end GroqSnippets
