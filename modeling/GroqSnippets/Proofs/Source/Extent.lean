/-
Where a lexeme ends.

How far a lexeme reaches is settled by its own characters: a literal and a block comment carry
their closing mark inside them, a line comment stops before a line break, the flags of a regex stop
before a character that is no letter.  So two things are shown of the functions that find the end.
What they answer with is a piece of the text they were given, and that piece stays the same when
the text is cut off anywhere behind it.

The one lexeme that looks further than it reaches is a slash that opens no regex: it has searched
the whole line for a closing slash.  Cutting the line off only takes candidates away, so a slash
that found none before the cut finds none after it.
-/
import Mathlib.Data.List.Basic
import Mathlib.Tactic.Common
import GroqSnippets.Source.Lexeme

namespace GroqSnippets

namespace Lexeme

/-! ### One character at a time

Most characters have no meaning of their own within a literal.  Their cases are one case here, so
that only the others have to be told apart below.
-/

/-- What a character that is no backslash does to a quoted literal. -/
theorem quotedRest_cons {quote c : Char} (hc : c ≠ '\\') (rest : Text) :
    quotedRest quote (c :: rest) = if c = quote then [c] else c :: quotedRest quote rest := by
  rw [quotedRest]
  · rintro rfl
    exact absurd rfl hc
  · intro _ _ h
    exact absurd h hc

/-- What a character without a meaning of its own does to a regex literal. -/
theorem regexRest?_cons {inClass : Bool} {c : Char} (hbreak : c ≠ '\n') (hescape : c ≠ '\\')
    (hopen : c ≠ '[') (hclose : c ≠ ']') (rest : Text) :
    regexRest? inClass (c :: rest)
      = if c = '/' ∧ inClass = false then some (c :: rest.takeWhile isLetter)
        else (regexRest? inClass rest).map (c :: ·) := by
  rw [regexRest?] <;> simp_all

/-- A regex literal has its closing slash at least. -/
theorem ne_nil_of_regexRest? {inClass : Bool} {rest body : Text}
    (h : regexRest? inClass rest = some body) : body ≠ [] := by
  fun_induction regexRest? inClass rest <;> simp_all <;> grind

/-! ### A lexeme is a piece of its text -/

theorem quotedRest_isPrefix (quote : Char) (rest : Text) : quotedRest quote rest <+: rest := by
  fun_induction quotedRest quote rest with
  | case1 | case2 => exact List.prefix_rfl
  | case3 c rest ih => exact (List.prefix_cons_inj _).mpr ((List.prefix_cons_inj _).mpr ih)
  | case4 rest hlone hpair => exact ⟨rest, rfl⟩
  | case5 c rest hlone hpair hc ih => exact (List.prefix_cons_inj _).mpr ih

theorem regexRest?_isPrefix {inClass : Bool} {rest body : Text}
    (h : regexRest? inClass rest = some body) :
    body <+: rest := by
  fun_induction regexRest? inClass rest generalizing body with
  | case1 | case2 | case3 => cases h
  | case4 inClass c rest ih =>
    obtain ⟨body, hbody, rfl⟩ := Option.map_eq_some_iff.mp h
    exact (List.prefix_cons_inj _).mpr ((List.prefix_cons_inj _).mpr (ih hbody))
  | case5 inClass rest ih | case6 inClass rest ih =>
    obtain ⟨body, hbody, rfl⟩ := Option.map_eq_some_iff.mp h
    exact (List.prefix_cons_inj _).mpr (ih hbody)
  | case7 inClass c rest hbreak hlone hpair hopen hclose hslash =>
    obtain rfl := Option.some.inj h
    exact (List.prefix_cons_inj _).mpr (rest.takeWhile_prefix _)
  | case8 inClass c rest hbreak hlone hpair hopen hclose hslash ih =>
    obtain ⟨body, hbody, rfl⟩ := Option.map_eq_some_iff.mp h
    exact (List.prefix_cons_inj _).mpr (ih hbody)

theorem blockCommentRest_isPrefix (rest : Text) : blockCommentRest rest <+: rest := by
  fun_induction blockCommentRest rest with
  | case1 => exact List.prefix_rfl
  | case2 rest => exact ⟨rest, rfl⟩
  | case3 c rest hne ih => exact (List.prefix_cons_inj _).mpr ih

theorem ofSlash_isPrefix (last : Option Char) (rest : Text) :
    (ofSlash last rest).text <+: '/' :: rest := by
  unfold ofSlash
  split
  · exact (List.prefix_cons_inj _).mpr ((List.prefix_cons_inj _).mpr (List.takeWhile_prefix _))
  · exact (List.prefix_cons_inj _).mpr ((List.prefix_cons_inj _).mpr (blockCommentRest_isPrefix _))
  · split
    · rename_i hbody
      by_cases hopens : opensRegex last = true
      · rw [if_pos hopens] at hbody
        exact (List.prefix_cons_inj _).mpr (regexRest?_isPrefix hbody)
      · rw [if_neg hopens] at hbody
        cases hbody
    · exact ⟨rest, rfl⟩

/-- The characters of the lexeme at the head of a text are the first characters of the text. -/
theorem first_isPrefix (last : Option Char) (c : Char) (rest : Text) :
    (first last c rest).text <+: c :: rest := by
  unfold first
  split
  · exact (List.prefix_cons_inj _).mpr (quotedRest_isPrefix c rest)
  · split
    · rename_i hslash
      rw [hslash]
      exact ofSlash_isPrefix last rest
    · exact ⟨rest, rfl⟩

/-! ### The end does not move when text behind it is cut off

`u` is what is left of the text, and `w` what was cut off.
-/

private theorem takeWhile_append_of_le {p : Char → Bool} {u w : Text}
    (h : ((u ++ w).takeWhile p).length ≤ u.length) : (u ++ w).takeWhile p = u.takeWhile p := by
  rw [List.takeWhile_append] at h ⊢
  split at h
  · rename_i hall
    have hnone : w.takeWhile p = [] := by
      rw [List.length_append] at h
      exact List.eq_nil_of_length_eq_zero (by omega)
    rw [if_pos hall, hnone, List.append_nil, (u.takeWhile_prefix p).eq_of_length hall]
  · rw [if_neg (by assumption)]

theorem quotedRest_append {quote : Char} {u w : Text}
    (h : (quotedRest quote (u ++ w)).length ≤ u.length) :
    quotedRest quote (u ++ w) = quotedRest quote u := by
  fun_induction quotedRest quote u with
  | case1 => simpa using h
  | case2 =>
    cases w with
    | nil => simp [quotedRest]
    | cons c w => simp [quotedRest] at h
  | case3 c rest ih => simp_all [quotedRest]
  | case4 rest hlone hpair =>
    have hc : quote ≠ '\\' := by cases rest <;> simp_all
    simp [quotedRest_cons hc]
  | case5 c rest hlone hpair hc ih =>
    have hne : c ≠ '\\' := by cases rest <;> simp_all
    simp_all [quotedRest_cons hne]

theorem regexRest?_append {inClass : Bool} {u w body : Text}
    (h : regexRest? inClass (u ++ w) = some body) (hlen : body.length ≤ u.length) :
    regexRest? inClass u = some body := by
  fun_induction regexRest? inClass u generalizing body with
  | case1 inClass => simp_all [ne_nil_of_regexRest? h]
  | case2 => simp_all [regexRest?]
  | case3 inClass =>
    cases w with
    | nil => simp [regexRest?] at h
    | cons c w =>
      simp only [List.cons_append, List.nil_append, regexRest?, Option.map_eq_some_iff] at h
      obtain ⟨body, -, rfl⟩ := h
      simp at hlen
  | case4 inClass c rest ih =>
    simp only [List.cons_append, regexRest?, Option.map_eq_some_iff] at h ⊢
    obtain ⟨body, hbody, rfl⟩ := h
    exact ⟨body, ih hbody (by simpa using hlen), rfl⟩
  | case5 inClass rest ih =>
    simp only [List.cons_append, regexRest?, Option.map_eq_some_iff] at h ⊢
    obtain ⟨body, hbody, rfl⟩ := h
    exact ⟨body, ih hbody (by simpa using hlen), rfl⟩
  | case6 inClass rest ih =>
    simp only [List.cons_append, regexRest?, Option.map_eq_some_iff] at h ⊢
    obtain ⟨body, hbody, rfl⟩ := h
    exact ⟨body, ih hbody (by simpa using hlen), rfl⟩
  | case7 inClass c rest hbreak hlone hpair hopen hclose hslash =>
    have hescape : c ≠ '\\' := by cases rest <;> simp_all
    rw [List.cons_append, regexRest?_cons hbreak hescape hopen hclose, if_pos hslash] at h
    obtain rfl := Option.some.inj h
    rw [takeWhile_append_of_le (by simpa using hlen)]
  | case8 inClass c rest hbreak hlone hpair hopen hclose hslash ih =>
    have hescape : c ≠ '\\' := by cases rest <;> simp_all
    rw [List.cons_append, regexRest?_cons hbreak hescape hopen hclose, if_neg hslash,
      Option.map_eq_some_iff] at h
    obtain ⟨body, hbody, rfl⟩ := h
    rw [ih hbody (by simpa using hlen)]
    rfl

theorem regexRest?_eq_none_of_append {inClass : Bool} {u w : Text}
    (h : regexRest? inClass (u ++ w) = none) : regexRest? inClass u = none := by
  fun_induction regexRest? inClass u with
  | case1 | case2 | case3 => rfl
  | case4 | case5 | case6 => simp_all [regexRest?]
  | case7 inClass c rest hbreak hlone hpair hopen hclose hslash =>
    have hescape : c ≠ '\\' := by cases rest <;> simp_all
    rw [List.cons_append, regexRest?_cons hbreak hescape hopen hclose, if_pos hslash] at h
    cases h
  | case8 inClass c rest hbreak hlone hpair hopen hclose hslash ih =>
    have hescape : c ≠ '\\' := by cases rest <;> simp_all
    rw [List.cons_append, regexRest?_cons hbreak hescape hopen hclose, if_neg hslash] at h
    simp_all

theorem blockCommentRest_append {u w : Text} (h : (blockCommentRest (u ++ w)).length ≤ u.length) :
    blockCommentRest (u ++ w) = blockCommentRest u := by
  fun_induction blockCommentRest u with
  | case1 => simpa using h
  | case2 => simp [blockCommentRest]
  | case3 c rest hne ih =>
    by_cases hmark : ∃ tail, c = '*' ∧ rest ++ w = '/' :: tail
    · obtain ⟨tail, rfl, htail⟩ := hmark
      cases rest with
      | nil => simp_all [blockCommentRest]
      | cons d rest => simp_all
    · have hcons : ∀ v, (∀ tail, c = '*' → v = '/' :: tail → False) →
          blockCommentRest (c :: v) = c :: blockCommentRest v := by
        intro v hv
        rw [blockCommentRest]
        exact hv
      have hnone : ∀ tail, c = '*' → rest ++ w = '/' :: tail → False := by
        intro tail hc htail
        exact hmark ⟨tail, hc, htail⟩
      rw [List.cons_append, hcons _ hnone] at h ⊢
      rw [ih (by simpa using h)]

/-- A slash before anything but a slash or a star is a regex literal or an ordinary character. -/
theorem ofSlash_of_ne {last : Option Char} {rest : Text} (hline : rest.head? ≠ some '/')
    (hblock : rest.head? ≠ some '*') :
    ofSlash last rest
      = match if opensRegex last then regexRest? false rest else none with
        | some body => regex ('/' :: body)
        | none => code '/' := by
  cases rest with
  | nil => rfl
  | cons c rest =>
    rw [ofSlash] <;> first | rfl | simp_all

theorem ofSlash_append {last : Option Char} {u w : Text}
    (h : (ofSlash last (u ++ w)).text.length ≤ u.length + 1) :
    ofSlash last u = ofSlash last (u ++ w) := by
  by_cases hline : (u ++ w).head? = some '/'
  · cases u with
    | nil => cases w <;> simp_all [ofSlash, text]
    | cons c u =>
      obtain rfl : c = '/' := by simpa using hline
      have hlen : ((u ++ w).takeWhile (· != '\n')).length ≤ u.length := by
        simpa [ofSlash, text] using h
      simp [ofSlash, takeWhile_append_of_le hlen]
  by_cases hblock : (u ++ w).head? = some '*'
  · cases u with
    | nil => cases w <;> simp_all [ofSlash, text]
    | cons c u =>
      obtain rfl : c = '*' := by simpa using hblock
      have hlen : (blockCommentRest (u ++ w)).length ≤ u.length := by
        simpa [ofSlash, text] using h
      simp [ofSlash, blockCommentRest_append hlen]
  have hhead : ∀ c, (u ++ w).head? ≠ some c → u.head? ≠ some c := by
    intro c hc
    cases u <;> simp_all
  rw [ofSlash_of_ne (hhead _ hline) (hhead _ hblock)]
  rw [ofSlash_of_ne hline hblock] at h ⊢
  cases hopens : opensRegex last with
  | false => rfl
  | true =>
    simp only [hopens, if_true] at h ⊢
    cases hbody : regexRest? false (u ++ w) with
    | none => rw [regexRest?_eq_none_of_append hbody]
    | some body => rw [regexRest?_append hbody (by simpa [hbody, text] using h)]

/-- Text behind a lexeme has no part in it: cut off there, the lexeme is the same. -/
theorem first_append {last : Option Char} {c : Char} {u w : Text}
    (h : (first last c (u ++ w)).text.length ≤ u.length + 1) :
    first last c u = first last c (u ++ w) := by
  unfold first at h ⊢
  split
  · rename_i hquote
    rw [if_pos hquote] at h
    rw [quotedRest_append (by simpa [text] using h)]
  · rename_i hquote
    rw [if_neg hquote] at h
    split
    · rename_i hslash
      rw [if_pos hslash] at h
      exact ofSlash_append h
    · rfl

/-- Of the last code character only one bit matters: whether a slash opens a regex after it. -/
theorem first_congr {a b : Option Char} (h : opensRegex a = opensRegex b) (c : Char) (rest : Text) :
    first a c rest = first b c rest := by
  unfold first ofSlash
  simp only [h]

end Lexeme

end GroqSnippets
