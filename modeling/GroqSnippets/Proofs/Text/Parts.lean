/-
Texts taken apart.

Four things are done to a text on the way from a header to its comment lines: a part is replaced
wherever it occurs, characters are taken off both ends, the text is cut at its line breaks, and the
lines are joined again.  Each is said here without the function that does it: as a relation between
the text and what becomes of it, which follows the text from left to right.

Cutting at one character is the library's own `List.splitOn`, so that what joins the pieces again is
known already.
-/
import GroqSnippets.Text.Basic
import GroqSnippets.Text.Line

namespace GroqSnippets

namespace Text

/-! ### Replacing

Occurrences may overlap, and then the one further left is the one that counts.  So the relation asks
that nothing occurs before the end of the first occurrence, and not only that nothing occurs in the
piece before it.
-/

/-- A text and the same text with `new` for every occurrence of `old`, from left to right. -/
inductive Replaced (old new : Text) : Text → Text → Prop where
  | rest {text : Text} (h : ¬ old <:+: text) : Replaced old new text text
  /-- The first occurrence stands behind a piece that stays, and the rest is replaced likewise. -/
  | cons {piece text replaced : Text} (hfirst : ¬ old <:+: (piece ++ old).dropLast)
      (hmore : Replaced old new text replaced) :
      Replaced old new (piece ++ old ++ text) (piece ++ new ++ replaced)

section

variable {old new : Text}

/-- What stands at the start is the first occurrence. -/
theorem Replaced.front {text replaced : Text} (hold : old ≠ []) (h : Replaced old new text replaced) :
    Replaced old new (old ++ text) (new ++ replaced) := by
  have hfirst : ¬ old <:+: ([] ++ old).dropLast := by
    intro hinfix
    have hle := hinfix.length_le
    have hpos := List.length_pos_iff.mpr hold
    rw [List.nil_append, List.length_dropLast] at hle
    omega
  exact .cons hfirst h

/-- A character where nothing begins stays. -/
theorem Replaced.push {text replaced : Text} {c : Char} (h : Replaced old new text replaced)
    (hc : ¬ old <+: c :: text) : Replaced old new (c :: text) (c :: replaced) := by
  cases h with
  | rest h =>
    refine .rest ?_
    rw [List.infix_cons_iff]
    exact not_or.mpr ⟨hc, h⟩
  | @cons piece text replaced hfirst hmore =>
    refine Replaced.cons (?_ : ¬ old <:+: (c :: piece ++ old).dropLast) hmore
    by_cases hold : old = []
    · exact absurd (hold ▸ List.nil_prefix) hc
    · have hne : piece ++ old ≠ [] := by simp [hold]
      rw [List.cons_append, List.dropLast_cons_of_ne_nil hne, List.infix_cons_iff]
      refine not_or.mpr ⟨?_, hfirst⟩
      intro hbegins
      refine hc (hbegins.trans ?_)
      rw [List.cons_prefix_cons]
      exact ⟨rfl, (List.dropLast_prefix _).trans (List.prefix_append _ _)⟩

theorem replaceFrom_eq_drop (skip : Nat) (text : Text) :
    replaceFrom old new skip text = replaceFrom old new 0 (text.drop skip) := by
  induction text generalizing skip with
  | nil => simp [replaceFrom]
  | cons c text ih =>
    cases skip with
    | zero => rfl
    | succ skip => rw [replaceFrom, ih, List.drop_succ_cons]

/-- The reading goes on behind an occurrence. -/
theorem replace_append (hold : old ≠ []) (text : Text) :
    replace old new (old ++ text) = new ++ replace old new text := by
  cases old with
  | nil => exact absurd rfl hold
  | cons c old =>
    have hbegins : (c :: old).isPrefixOf (c :: (old ++ text)) = true := by
      rw [List.isPrefixOf_iff_prefix]
      exact List.prefix_append (c :: old) text
    unfold replace
    rw [List.cons_append, replaceFrom, if_pos hbegins, replaceFrom_eq_drop, List.length_cons,
      Nat.add_sub_cancel, List.drop_left]

theorem replace_cons {c : Char} {text : Text} (hc : ¬ old <+: c :: text) :
    replace old new (c :: text) = c :: replace old new text := by
  unfold replace
  rw [replaceFrom, if_neg (by rwa [List.isPrefixOf_iff_prefix])]

theorem replaced_replace (hold : old ≠ []) (text : Text) :
    Replaced old new text (replace old new text) := by
  -- on the length, because the reading goes on behind a whole occurrence
  induction hlen : text.length using Nat.strongRecOn generalizing text with
  | ind n ih =>
    cases text with
    | nil => exact .rest (by simpa using hold)
    | cons c text =>
      by_cases hc : old <+: c :: text
      · obtain ⟨more, hmore⟩ := hc
        have hshort : more.length < n := by
          have hpos := List.length_pos_iff.mpr hold
          rw [← hlen, ← hmore, List.length_append]
          omega
        rw [← hmore, replace_append hold]
        exact (ih more.length hshort more rfl).front hold
      · have hshort : text.length < n := by
          rw [← hlen, List.length_cons]
          omega
        rw [replace_cons hc]
        exact (ih text.length hshort text rfl).push hc

end

/-! ### Stripping -/

/-- A text and what is left between the characters at its ends that satisfy `p`. -/
structure Stripped (p : Char → Bool) (text middle : Text) : Prop where
  around : ∃ front back, text = front ++ middle ++ back ∧ front.all p = true ∧ back.all p = true
  begins : ∀ c ∈ middle.head?, p c = false
  ends : ∀ c ∈ middle.getLast?, p c = false

theorem head?_dropWhile {p : Char → Bool} {text : Text} :
    ∀ c ∈ (text.dropWhile p).head?, p c = false := by
  intro c hc
  have hhead := List.head?_dropWhile_not p text
  rwa [Option.mem_def.mp hc] at hhead

theorem stripped_stripWhile (p : Char → Bool) (text : Text) :
    Stripped p text (text.stripWhile p) := by
  have hback : text.stripWhile p ++ ((text.dropWhile p).reverse.takeWhile p).reverse
      = text.dropWhile p := by
    rw [stripWhile, ← List.reverse_append, List.takeWhile_append_dropWhile, List.reverse_reverse]
  refine ⟨⟨text.takeWhile p, ((text.dropWhile p).reverse.takeWhile p).reverse, ?_, List.all_takeWhile, ?_⟩,
    ?_, ?_⟩
  · rw [List.append_assoc, hback, List.takeWhile_append_dropWhile]
  · rw [List.all_reverse, List.all_takeWhile]
  · intro c hc
    have hhead : c ∈ (text.dropWhile p).head? → p c = false := head?_dropWhile c
    refine hhead ?_
    rw [← hback, List.head?_append, Option.mem_def.mp hc]
    rfl
  · rw [stripWhile, List.getLast?_reverse]
    exact head?_dropWhile

/-- A text whose ends do not satisfy `p` loses nothing. -/
theorem stripWhile_eq_self {p : Char → Bool} {text : Text} (hbegins : ∀ c ∈ text.head?, p c = false)
    (hends : ∀ c ∈ text.getLast?, p c = false) : text.stripWhile p = text := by
  have hkeep : ∀ text : Text, (∀ c ∈ text.head?, p c = false) → text.dropWhile p = text := by
    intro text h
    cases text with
    | nil => rfl
    | cons c text => rw [List.dropWhile_cons_of_neg (by simpa using h)]
  rw [stripWhile, hkeep text hbegins, hkeep text.reverse (by simpa using hends), List.reverse_reverse]

/-! ### Pieces -/

theorem pieces_eq_splitOn (separator : Char) (text : Text) :
    pieces separator text = text.splitOn separator := by
  induction text with
  | nil => rfl
  | cons c text ih =>
    rw [pieces, List.splitOn_cons_eq_if_modifyHead, ih]
    split
    · rfl
    · cases h : text.splitOn separator with
      | nil => exact absurd h (List.splitOn_ne_nil separator text)
      | cons piece more => rfl

/-- The pieces on both sides of a separator. -/
theorem pieces_append_cons (separator : Char) (front back : Text) :
    pieces separator (front ++ separator :: back)
      = pieces separator front ++ pieces separator back := by
  simp only [pieces_eq_splitOn, List.splitOn_append_cons_self]

/-- What is added behind a text without a separator goes to its last piece. -/
theorem exists_pieces_append (separator : Char) (front : Text) :
    ∃ before last, separator ∉ last ∧ ∀ text : Text, separator ∉ text →
      pieces separator (front ++ text) = before ++ [last ++ text] := by
  have halone (text : Text) (h : separator ∉ text) : pieces separator text = [text] := by
    rw [pieces_eq_splitOn, List.splitOn_eq_singleton h]
  by_cases hfront : separator ∈ front.reverse
  · -- the text is cut at its last separator
    obtain ⟨last, before, hcut, hlast⟩ := List.eq_append_cons_of_mem hfront
    have hcut' : front = before.reverse ++ separator :: last.reverse := by
      rw [← List.reverse_reverse front, hcut]
      simp
    refine ⟨pieces separator before.reverse, last.reverse, by simpa using hlast, ?_⟩
    intro text htext
    rw [hcut', List.append_assoc, List.cons_append, pieces_append_cons,
      halone (last.reverse ++ text) (by simp [hlast, htext])]
  · refine ⟨[], front, by simpa using hfront, ?_⟩
    intro text htext
    exact halone (front ++ text) (by simpa [htext] using hfront)

/-! ### Lines -/

/-- A text and its lines.  Each of them ends at a line break, and the last one may end with the text. -/
inductive Lined : Text → List Text → Prop where
  | nil : Lined [] []
  | last {line : Text} (hne : line ≠ []) (hline : ∀ c ∈ line, isLineBreak c = false) :
      Lined line [line]
  /-- A line, a carriage return with a line feed, and the rest. -/
  | pair {line text : Text} {lines : List Text} (hline : ∀ c ∈ line, isLineBreak c = false)
      (hmore : Lined text lines) : Lined (line ++ '\r' :: '\n' :: text) (line :: lines)
  | mark {line text : Text} {c : Char} {lines : List Text} (hline : ∀ c ∈ line, isLineBreak c = false)
      (hc : isLineBreak c = true) (hsingle : c = '\r' → text.head? ≠ some '\n')
      (hmore : Lined text lines) : Lined (line ++ c :: text) (line :: lines)

theorem lined_linesFrom (line text : Text) (hline : ∀ c ∈ line, isLineBreak c = false) :
    Lined (line.reverse ++ text) (linesFrom line text) := by
  induction line, text using linesFrom.induct with
  | case1 line hempty =>
    rw [linesFrom, if_pos hempty, List.isEmpty_iff.mp hempty]
    exact .nil
  | case2 line hempty =>
    rw [linesFrom, if_neg hempty, List.append_nil]
    exact .last (by simpa using hempty) (by simpa using hline)
  | case3 line text ih =>
    rw [linesFrom]
    exact .pair (by simpa using hline) (ih (by simp))
  | case4 line c text hpair hc ih =>
    rw [linesFrom, if_pos hc]
    · refine .mark (by simpa using hline) hc ?_ (ih (by simp))
      intro hreturn hfeed
      obtain ⟨rest, rfl⟩ := List.head?_eq_some_iff.mp hfeed
      exact hpair rest hreturn rfl
    · exact hpair
  | case5 line c text hpair hc ih =>
    rw [linesFrom, if_neg hc]
    · have hline' : ∀ d ∈ c :: line, isLineBreak d = false := by
        simpa using ⟨by simpa using hc, hline⟩
      simpa using ih hline'
    · exact hpair

theorem lined_lines (text : Text) : Lined text text.lines :=
  lined_linesFrom [] text (by simp)

theorem Lined.isLineBreak_eq_false {text line : Text} {lines : List Text} (h : Lined text lines)
    (hline : line ∈ lines) : ∀ c ∈ line, isLineBreak c = false := by
  induction h with
  | nil => simp at hline
  | last hne hplain =>
    obtain rfl := List.mem_singleton.mp hline
    exact hplain
  | pair hplain _ ih | mark hplain _ _ _ ih =>
    rcases List.mem_cons.mp hline with rfl | hline
    · exact hplain
    · exact ih hline

end Text

end GroqSnippets
