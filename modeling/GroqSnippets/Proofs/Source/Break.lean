/-
What stands before a line feed.

When a scan reads a line feed as code, it has finished with all lexemes before it, and what follows
the line feed could be anything else: literals and block comments are closed already, and a line
comment ends here in any case.  A slash that opened no regex has searched its line in vain, and the
search ends at the line feed, with one exception.  A backslash takes the next character with it,
even a line feed, so behind a backslash the search goes on in the next line.
-/
import GroqSnippets.Proofs.Source.Window

namespace GroqSnippets

theorem getLast?_ne_of_append {a b : Text} {c : Char} (h : (a ++ b).getLast? ≠ some c) :
    b.getLast? ≠ some c := by
  cases b with
  | nil => simp
  | cons d b => simpa [List.getLast?_append, List.getLast?_cons] using h

namespace Lexeme

/-! ### Lexemes that end before a line feed

A lexeme that ends before a line feed has not looked behind it, with one exception: the slash that
finds no partner in its line.  It has not looked further than the line feed.
-/

section

variable {u x : Text}

theorem takeWhile_of_break {p : Char → Bool} (hp : p '\n' = false) (u y : Text) :
    (u ++ '\n' :: y).takeWhile p = u.takeWhile p := by
  induction u with
  | nil => simp [hp]
  | cons c u ih => by_cases hc : p c = true <;> simp [hc, ih]

theorem quotedRest_of_break {quote : Char}
    (h : (quotedRest quote (u ++ '\n' :: x)).length ≤ u.length) (y : Text) :
    quotedRest quote (u ++ '\n' :: y) = quotedRest quote (u ++ '\n' :: x) := by
  fun_induction quotedRest quote u with
  | case1 =>
    rw [List.nil_append, quotedRest_cons (by decide)] at h
    split at h <;> simp at h
  | case2 => simp [quotedRest] at h
  | case3 c rest ih =>
    simp only [List.cons_append, quotedRest, List.length_cons] at h ⊢
    rw [ih (by omega)]
  | case4 rest hlone hpair =>
    have hne : quote ≠ '\\' := by cases rest <;> simp_all
    simp [quotedRest_cons hne]
  | case5 c rest hlone hpair hc ih =>
    have hne : c ≠ '\\' := by cases rest <;> simp_all
    rw [List.cons_append, quotedRest_cons hne, if_neg hc] at h
    rw [List.cons_append, List.cons_append, quotedRest_cons hne, quotedRest_cons hne, if_neg hc,
      if_neg hc, ih (by simpa using h)]

theorem blockCommentRest_cons {c : Char} {rest : Text}
    (h : ∀ tail, c = '*' → rest = '/' :: tail → False) :
    blockCommentRest (c :: rest) = c :: blockCommentRest rest := by
  rw [blockCommentRest]
  exact h

theorem blockCommentRest_of_break (h : (blockCommentRest (u ++ '\n' :: x)).length ≤ u.length)
    (y : Text) : blockCommentRest (u ++ '\n' :: y) = blockCommentRest (u ++ '\n' :: x) := by
  fun_induction blockCommentRest u with
  | case1 => simp [blockCommentRest] at h
  | case2 => simp [blockCommentRest]
  | case3 c rest hne ih =>
    have hopen : ∀ more tail, c = '*' → rest ++ '\n' :: more = '/' :: tail → False := by
      intro more tail hc htail
      cases rest with
      | nil => simp at htail
      | cons d rest =>
        obtain ⟨rfl, -⟩ := List.cons.inj htail
        exact hne rest hc rfl
    rw [List.cons_append, blockCommentRest_cons (hopen x)] at h
    rw [List.cons_append, List.cons_append, blockCommentRest_cons (hopen x),
      blockCommentRest_cons (hopen y), ih (by simpa using h)]

/-- A regex literal that is closed before the line feed. -/
theorem regexRest?_of_break {inClass : Bool} {body : Text}
    (h : regexRest? inClass (u ++ '\n' :: x) = some body) (hlen : body.length ≤ u.length)
    (y : Text) : regexRest? inClass (u ++ '\n' :: y) = some body := by
  fun_induction regexRest? inClass u generalizing body with
  | case1 inClass => simp [regexRest?] at h
  | case2 => simp [regexRest?] at h
  | case3 inClass =>
    simp only [List.cons_append, List.nil_append, regexRest?, Option.map_eq_some_iff] at h
    obtain ⟨body, -, rfl⟩ := h
    simp at hlen
  | case4 inClass c rest ih =>
    simp only [List.cons_append, regexRest?, Option.map_eq_some_iff] at h ⊢
    obtain ⟨body, hbody, rfl⟩ := h
    exact ⟨body, ih hbody (by simpa using hlen), rfl⟩
  | case5 inClass rest ih | case6 inClass rest ih =>
    simp only [List.cons_append, regexRest?, Option.map_eq_some_iff] at h ⊢
    obtain ⟨body, hbody, rfl⟩ := h
    exact ⟨body, ih hbody (by simpa using hlen), rfl⟩
  | case7 inClass c rest hbreak hlone hpair hopen hclose hslash =>
    have hescape : c ≠ '\\' := by cases rest <;> simp_all
    rw [List.cons_append, regexRest?_cons hbreak hescape hopen hclose, if_pos hslash] at h ⊢
    rw [← h, takeWhile_of_break (by decide), takeWhile_of_break (by decide)]
  | case8 inClass c rest hbreak hlone hpair hopen hclose hslash ih =>
    have hescape : c ≠ '\\' := by cases rest <;> simp_all
    rw [List.cons_append, regexRest?_cons hbreak hescape hopen hclose, if_neg hslash,
      Option.map_eq_some_iff] at h ⊢
    obtain ⟨body, hbody, rfl⟩ := h
    exact ⟨body, ih hbody (by simpa using hlen), rfl⟩

/-- A slash whose line has no closing slash. -/
theorem regexRest?_eq_none_of_break {inClass : Bool}
    (h : regexRest? inClass (u ++ '\n' :: x) = none) (hlast : u.getLast? ≠ some '\\') (y : Text) :
    regexRest? inClass (u ++ '\n' :: y) = none := by
  fun_induction regexRest? inClass u with
  | case1 => rfl
  | case2 => rfl
  | case3 => simp at hlast
  | case4 inClass c rest ih =>
    simp only [List.cons_append, regexRest?, Option.map_eq_none_iff] at h ⊢
    exact ih h (getLast?_ne_of_append (a := ['\\', c]) hlast)
  | case5 inClass rest ih | case6 inClass rest ih =>
    simp only [List.cons_append, regexRest?, Option.map_eq_none_iff] at h ⊢
    exact ih h (getLast?_ne_of_append (a := [_]) hlast)
  | case7 inClass c rest hbreak hlone hpair hopen hclose hslash =>
    have hescape : c ≠ '\\' := by cases rest <;> simp_all
    rw [List.cons_append, regexRest?_cons hbreak hescape hopen hclose, if_pos hslash] at h
    cases h
  | case8 inClass c rest hbreak hlone hpair hopen hclose hslash ih =>
    have hescape : c ≠ '\\' := by cases rest <;> simp_all
    rw [List.cons_append, regexRest?_cons hbreak hescape hopen hclose, if_neg hslash,
      Option.map_eq_none_iff] at h ⊢
    exact ih h (getLast?_ne_of_append (a := [_]) hlast)

theorem ofSlash_of_break {last : Option Char}
    (h : (ofSlash last (u ++ '\n' :: x)).text.length ≤ u.length + 1)
    (hlast : u.getLast? ≠ some '\\') (y : Text) :
    ofSlash last (u ++ '\n' :: y) = ofSlash last (u ++ '\n' :: x) := by
  have hhead : ∀ z, (u ++ '\n' :: z).head? = (u ++ ['\n']).head? := by
    intro z
    cases u <;> rfl
  by_cases hline : (u ++ ['\n']).head? = some '/'
  · obtain ⟨rest, rfl⟩ : ∃ rest, u = '/' :: rest := by
      cases u <;> simp_all
    rw [List.cons_append, List.cons_append, ofSlash, ofSlash, takeWhile_of_break (by decide),
      takeWhile_of_break (by decide)]
  by_cases hblock : (u ++ ['\n']).head? = some '*'
  · obtain ⟨rest, rfl⟩ : ∃ rest, u = '*' :: rest := by
      cases u <;> simp_all
    have hlen : (blockCommentRest (rest ++ '\n' :: x)).length ≤ rest.length := by
      simpa [ofSlash, text] using h
    rw [List.cons_append, List.cons_append, ofSlash, ofSlash, blockCommentRest_of_break hlen y]
  rw [ofSlash_of_ne (by rwa [hhead]) (by rwa [hhead])] at h ⊢
  rw [ofSlash_of_ne (by rwa [hhead]) (by rwa [hhead])]
  cases hopens : opensRegex last with
  | false => rfl
  | true =>
    simp only [hopens, if_true] at h ⊢
    cases hbody : regexRest? false (u ++ '\n' :: x) with
    | none => rw [regexRest?_eq_none_of_break hbody hlast]
    | some body => rw [regexRest?_of_break hbody (by simpa [hbody, text] using h)]

/-- A lexeme that ends before a line feed ends there whatever follows it. -/
theorem first_of_break {last : Option Char} {c : Char}
    (h : (first last c (u ++ '\n' :: x)).text.length ≤ u.length + 1)
    (hlast : (c :: u).getLast? ≠ some '\\') (y : Text) :
    first last c (u ++ '\n' :: y) = first last c (u ++ '\n' :: x) := by
  unfold first at h ⊢
  split
  · rename_i hquote
    rw [if_pos hquote] at h
    rw [quotedRest_of_break (by simpa [text] using h) y]
  · rename_i hquote
    rw [if_neg hquote] at h
    split
    · rename_i hslash
      rw [if_pos hslash] at h
      exact ofSlash_of_break h (getLast?_ne_of_append (a := [c]) hlast) y
    · rfl

end

end Lexeme

/-! ### Rows before a line feed -/

/-- A row before a line feed is read again when something else follows the line feed. -/
theorem exists_lexemes_of_break (row : List Lexeme) :
    ∀ (last : Option Char) {x : Text} {more : List Lexeme},
    lexemes last (rowText row ++ '\n' :: x) = row ++ .code '\n' :: more →
      (rowText row).getLast? ≠ some '\\' → ∀ y, ∃ more,
        lexemes last (rowText row ++ '\n' :: y) = row ++ .code '\n' :: more := by
  induction row with
  | nil =>
    intro last x more h hlast y
    have hplain : ∀ c ∈ ['\n'], isPlain c = true := List.forall_mem_singleton.mpr (by decide)
    exact ⟨_, lexemes_append_of_isPlain hplain last y⟩
  | cons lexeme row ih =>
    intro last x more h hlast y
    obtain ⟨c, rest, htext⟩ : ∃ c rest, rowText (lexeme :: row) ++ '\n' :: x = c :: rest :=
      List.exists_cons_of_ne_nil (by simp)
    rw [htext, lexemes_cons, List.cons_append, List.cons.injEq] at h
    obtain ⟨hfirst, hmore⟩ := h
    -- The first lexeme is not empty, so it takes the first character along.
    obtain ⟨tail, hlexeme⟩ : ∃ tail, lexeme.text = c :: tail := by
      have hne := Lexeme.text_first_ne_nil last c rest
      rw [hfirst] at hne
      obtain ⟨d, tail, hd⟩ := List.exists_cons_of_ne_nil hne
      rw [rowText_cons, hd] at htext
      obtain ⟨rfl, -⟩ := List.cons.inj htext
      exact ⟨tail, hd⟩
    have hrest : rest = (tail ++ rowText row) ++ '\n' :: x := by
      rw [rowText_cons, hlexeme] at htext
      simpa using (List.cons.inj htext).2.symm
    rw [rowText_cons, hlexeme, List.cons_append] at hlast ⊢
    have hsame : Lexeme.first last c ((tail ++ rowText row) ++ '\n' :: y) = lexeme := by
      rw [hrest] at hfirst
      rw [Lexeme.first_of_break (x := x) (by rw [hfirst, hlexeme]; simp) hlast y, hfirst]
    have hdrop : ∀ z, (c :: ((tail ++ rowText row) ++ '\n' :: z)).drop lexeme.text.length
        = rowText row ++ '\n' :: z := by
      intro z
      rw [hlexeme]
      simp
    rw [hfirst, hrest, hdrop] at hmore
    obtain ⟨more', hmore'⟩ := ih _ hmore (getLast?_ne_of_append (a := c :: tail) hlast) y
    refine ⟨more', ?_⟩
    rw [List.cons_append, lexemes_cons, hsame, hdrop, hmore']
    rfl

/-- Behind a line feed that a scan reads as code, the text is read with the memory before it. -/
theorem lexemes_at_break {before more : Text} {start : Nat} (hstart : start ≤ before.length)
    (h : (before.length, .code '\n') ∈ (before ++ '\n' :: more).seen start) :
    lexemes none ((before ++ '\n' :: more).drop start)
      = lexemes none (before.drop start)
        ++ .code '\n' :: lexemes (lastAfterRow none (lexemes none (before.drop start))) more := by
  obtain ⟨front, back, hrow, hlength⟩ := exists_split_of_mem_seen h
  have htext : (before ++ '\n' :: more).drop start = before.drop start ++ '\n' :: more :=
    List.drop_append_of_le_length hstart
  have hspelled : rowText front ++ '\n' :: rowText back = before.drop start ++ '\n' :: more := by
    rw [← htext, ← rowText_lexemes none ((before ++ '\n' :: more).drop start), hrow, rowText_append]
    rfl
  obtain ⟨hfront, hback⟩ := List.append_inj hspelled (by rw [List.length_drop]; omega)
  obtain ⟨-, hmore⟩ := List.cons.inj hback
  have hwhole : lexemes none (rowText (front ++ .code '\n' :: back))
      = front ++ .code '\n' :: back := by
    rw [← hrow, rowText_lexemes]
  have hread := lexemes_rowText_left hwhole
  rw [← List.singleton_append, ← List.append_assoc] at hwhole
  have hbehind := lexemes_rowText_append hwhole
  have hmemory : lastAfterRow none (front ++ [.code '\n']) = lastAfterRow none front := by
    rw [lastAfterRow, List.foldl_append]
    rfl
  rw [hmemory] at hbehind
  rw [hrow, ← hfront, hread, ← hmore, ← hbehind]

/-- A line feed that a scan reads as code is read as code again when something else follows it, if
no backslash stands before it. -/
theorem seen_of_break {before x : Text} {start : Nat} (hstart : start ≤ before.length)
    (h : (before.length, .code '\n') ∈ (before ++ '\n' :: x).seen start)
    (hlast : before.getLast? ≠ some '\\') (y : Text) :
    (before.length, .code '\n') ∈ (before ++ '\n' :: y).seen start := by
  have hrow := lexemes_at_break hstart h
  have hread : rowText (lexemes none (before.drop start)) = before.drop start := rowText_lexemes _ _
  have hdrop : ∀ z, (before ++ '\n' :: z).drop start
      = rowText (lexemes none (before.drop start)) ++ '\n' :: z := by
    intro z
    rw [hread, List.drop_append_of_le_length hstart]
  have hlastRow : (rowText (lexemes none (before.drop start))).getLast? ≠ some '\\' := by
    rw [hread]
    rw [← List.take_append_drop start before] at hlast
    exact getLast?_ne_of_append hlast
  rw [hdrop] at hrow
  obtain ⟨more, hmore⟩ := exists_lexemes_of_break _ none hrow hlastRow y
  have hlength : start + (rowText (lexemes none (before.drop start))).length = before.length := by
    rw [hread, List.length_drop]
    omega
  rw [seen_eq (by simp; omega), hdrop, hmore, located_append, hlength]
  exact List.mem_filter.mpr ⟨List.mem_append_right _ List.mem_cons_self, rfl⟩

end GroqSnippets
