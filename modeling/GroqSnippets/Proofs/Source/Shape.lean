/-
What a pattern matches, written out.

A pattern is a row of parts that are tried one after the other, and each part takes a run that the
text alone settles.  So a pattern matches exactly where the text has a certain shape: a key, a
colon, blanks and an opening list; a call, blanks and an opening object; a key and a value between
quotes.  These shapes are given here, each as an equivalence with the text written out in full, and
nothing behind this file looks at parts again.
-/
import Mathlib.Data.List.TakeWhile
import Mathlib.Tactic.Common
import GroqSnippets.Source.Window

namespace GroqSnippets

/-- What is not in the first of two lists is in the second. -/
theorem exists_of_append_eq_left {α : Type} {x y a b : List α} {c : α} (hc : c ∉ x)
    (h : x ++ y = a ++ c :: b) : ∃ t, a = x ++ t ∧ y = t ++ c :: b := by
  rcases List.append_eq_append_iff.mp h with ⟨t, ha, hy⟩ | ⟨t, hx, hb⟩
  · exact ⟨t, ha, hy⟩
  · cases t with
    | nil => exact ⟨[], by simpa using hx.symm, by simpa using hb.symm⟩
    | cons d t =>
      obtain ⟨rfl, -⟩ := List.cons.inj hb
      exact absurd (by simp [hx]) hc

/-- What is not in the second of two lists is in the first. -/
theorem exists_of_append_eq_right {α : Type} {x y a b : List α} {c : α} (hc : c ∉ y)
    (h : x ++ y = a ++ c :: b) : ∃ t, x = a ++ c :: t ∧ b = t ++ y := by
  rcases List.append_eq_append_iff.mp h with ⟨t, -, hy⟩ | ⟨t, hx, hb⟩
  · exact absurd (by simp [hy]) hc
  · cases t with
    | nil =>
      rw [List.nil_append] at hb
      rw [← hb] at hc
      exact absurd List.mem_cons_self hc
    | cons d t =>
      obtain ⟨rfl, hmore⟩ := List.cons.inj hb
      exact ⟨t, hx, hmore⟩

/-- The stretch at the head of a text that satisfies a test is settled by where the test first
fails. -/
theorem takeWhile_eq_iff {p : Char → Bool} {text run : Text} :
    text.takeWhile p = run
      ↔ ∃ more, text = run ++ more ∧ (∀ c ∈ run, p c = true) ∧ ∀ c ∈ more.head?, p c = false := by
  constructor
  · rintro rfl
    refine ⟨text.dropWhile p, List.takeWhile_append_dropWhile.symm, ?_, ?_⟩
    · intro c hc
      exact List.mem_takeWhile_imp hc
    · intro c hc
      have := List.head?_dropWhile_not p text
      simp_all
  · rintro ⟨more, rfl, hrun, hmore⟩
    rw [List.takeWhile_append_of_pos hrun]
    cases more with
    | nil => simp
    | cons c more => simp [hmore c (by simp)]

/-- A text without a character ends where the character first stands. -/
theorem takeWhile_bne {c : Char} {body more : Text} (hbody : c ∉ body)
    (hmore : ∀ d ∈ more.head?, d = c) : (body ++ more).takeWhile (· != c) = body := by
  refine takeWhile_eq_iff.mpr ⟨more, rfl, ?_, ?_⟩
  · intro d hd
    exact bne_iff_ne.mpr (ne_of_mem_of_not_mem hd hbody)
  · intro d hd
    simp [hmore d hd]

/-- The first place of a character. -/
theorem Cursor.seek_ofText {c : Char} {run more : Text} (hrun : c ∉ run)
    (hmore : ∀ d ∈ more.head?, d = c) :
    (Cursor.ofText (run ++ more)).seek c = (Cursor.ofText (run ++ more)).skip run.length := by
  rw [seek, ofText, takeWhile_bne hrun hmore]

/-! ### Values -/

/-- Whether a text can stand between quotes: it is not empty and has no quote in it. -/
structure Text.IsValue (text : Text) : Prop where
  nonempty : text ≠ []
  no_single : '\'' ∉ text
  no_double : '"' ∉ text

theorem Text.IsValue.of_not_isValueQuote {text : Text} (hne : text ≠ [])
    (h : ∀ c ∈ text, isValueQuote c = false) : text.IsValue where
  nonempty := hne
  no_single := by
    intro hmem
    have hquote := h _ hmem
    revert hquote
    decide
  no_double := by
    intro hmem
    have hquote := h _ hmem
    revert hquote
    decide

theorem Text.IsValue.not_isValueQuote {text : Text} (h : text.IsValue) :
    ∀ c ∈ text, isValueQuote c = false := by
  intro c hc
  rw [isValueQuote, Bool.or_eq_false_iff, beq_eq_false_iff_ne, beq_eq_false_iff_ne]
  constructor
  · intro hquote
    rw [hquote] at hc
    exact h.no_single hc
  · intro hquote
    rw [hquote] at hc
    exact h.no_double hc

/-! ### Parts -/

namespace Part

theorem take?_exact {text taken : Text} {place : Cursor} :
    (exact text).take? place = some taken ↔ taken = text ∧ ∃ more, place.rest = text ++ more := by
  simp only [take?, Option.ite_none_right_eq_some, Option.some.injEq, List.isPrefixOf_iff_prefix]
  constructor
  · rintro ⟨⟨more, hmore⟩, rfl⟩
    exact ⟨rfl, more, hmore.symm⟩
  · rintro ⟨rfl, more, hmore⟩
    exact ⟨⟨more, hmore.symm⟩, rfl⟩

theorem take?_value {text taken : Text} {place : Cursor} :
    (value text).take? place = some taken ↔ taken = text ∧ ∃ more, place.rest = text ++ more :=
  take?_exact

theorem take?_blanks {taken : Text} {place : Cursor} :
    blanks.take? place = some taken
      ↔ ∃ more, place.rest = taken ++ more ∧ (∀ c ∈ taken, isBlank c = true)
          ∧ ∀ c ∈ more.head?, isBlank c = false := by
  rw [take?, Option.some.injEq, takeWhile_eq_iff]

theorem take?_quote {taken : Text} {place : Cursor} :
    quote.take? place = some taken
      ↔ ∃ q more, place.rest = q :: more ∧ isValueQuote q = true ∧ taken = [q] := by
  cases hrest : place.rest with
  | nil => simp [take?, hrest]
  | cons q more =>
    simp only [take?, hrest, List.head?_cons, Option.filter_some, List.cons.injEq]
    constructor
    · intro h
      by_cases hq : isValueQuote q = true
      · simp only [hq, if_true, Option.map_some, Option.some.injEq] at h
        exact ⟨q, more, ⟨rfl, rfl⟩, hq, h.symm⟩
      · simp [hq] at h
    · rintro ⟨q, more, ⟨rfl, rfl⟩, hq, rfl⟩
      simp [hq]

theorem take?_anyValue {taken : Text} {place : Cursor} :
    anyValue.take? place = some taken
      ↔ taken ≠ [] ∧ ∃ more, place.rest = taken ++ more ∧ (∀ c ∈ taken, isValueQuote c = false)
          ∧ ∀ c ∈ more.head?, isValueQuote c = true := by
  have hrun : place.rest.takeWhile (!isValueQuote ·) = taken ↔ _ := takeWhile_eq_iff
  simp only [Bool.not_eq_true', Bool.not_eq_false'] at hrun
  rw [← hrun, take?]
  cases hall : place.rest.takeWhile (!isValueQuote ·) with
  | nil => simp [eq_comm]
  | cons c run =>
    simp only [Option.some.injEq]
    constructor
    · rintro rfl
      exact ⟨by simp, rfl⟩
    · intro h
      exact h.2

end Part

namespace Pattern

theorem matchParts_cons {part : Part} {parts : List Part} {place : Cursor} {text : Text}
    {value : Option Text} :
    matchParts (part :: parts) place = some (text, value)
      ↔ ∃ taken more inner, part.take? place = some taken
          ∧ matchParts parts (place.skip taken.length) = some (more, inner) ∧ text = taken ++ more
          ∧ value = if part.isValue then some taken else inner := by
  simp only [matchParts, Option.bind_eq_bind, Option.bind_eq_some_iff,
    Option.pure_def, Option.some.injEq, Prod.mk.injEq, Prod.exists]
  constructor
  · rintro ⟨taken, htaken, more, inner, hmore, rfl, rfl⟩
    exact ⟨taken, more, inner, htaken, hmore, rfl, rfl⟩
  · rintro ⟨taken, more, inner, htaken, hmore, rfl, rfl⟩
    exact ⟨taken, htaken, more, inner, hmore, rfl, rfl⟩

theorem matchParts_nil {place : Cursor} {text : Text} {value : Option Text} :
    matchParts [] place = some (text, value) ↔ text = [] ∧ value = none := by
  simp [matchParts, eq_comm]

theorem match?_eq_some_iff {pattern : Pattern} {place : Cursor} {found : Match} :
    pattern.match? place = some found
      ↔ found.place = place ∧ matchParts pattern.parts place = some (found.text, found.value) := by
  simp only [match?, Option.map_eq_some_iff, Prod.exists]
  constructor
  · rintro ⟨text, value, h, rfl⟩
    exact ⟨rfl, h⟩
  · rintro ⟨rfl, h⟩
    exact ⟨found.text, found.value, h, rfl⟩

theorem matchParts_exact {text taken : Text} {parts : List Part} {place : Cursor}
    {value : Option Text} :
    matchParts (.exact text :: parts) place = some (taken, value)
      ↔ (∃ more, place.rest = text ++ more)
          ∧ ∃ tail, matchParts parts (place.skip text.length) = some (tail, value)
            ∧ taken = text ++ tail := by
  simp only [matchParts_cons, Part.take?_exact, Part.isValue]
  constructor
  · rintro ⟨_, tail, _, ⟨rfl, hrest⟩, htail, rfl, rfl⟩
    exact ⟨hrest, tail, htail, rfl⟩
  · rintro ⟨hrest, tail, htail, rfl⟩
    exact ⟨text, tail, value, ⟨rfl, hrest⟩, htail, rfl, rfl⟩

theorem matchParts_boundary {parts : List Part} {place : Cursor} {result : Text × Option Text} :
    matchParts (.boundary :: parts) place = some result
      ↔ isWordBoundary place.before place.rest.head? = true
          ∧ matchParts parts place = some result := by
  obtain ⟨text, value⟩ := result
  simp only [matchParts_cons, Part.take?, Part.isValue,
    Option.ite_none_right_eq_some, Option.some.injEq]
  constructor
  · rintro ⟨_, more, _, ⟨hboundary, rfl⟩, hmore, rfl, rfl⟩
    exact ⟨hboundary, hmore⟩
  · rintro ⟨hboundary, hmore⟩
    exact ⟨[], text, value, ⟨hboundary, rfl⟩, hmore, rfl, rfl⟩

/-! ### Blanks and what stands behind them -/

theorem not_isBlank_of_isOpener {c : Char} (h : isOpener c = true) : isBlank c = false := by
  simp only [isOpener, Bool.or_eq_true, beq_iff_eq] at h
  rcases h with (rfl | rfl) | rfl <;> decide

theorem not_isCloser_of_isBlank {c : Char} (h : isBlank c = true) : isCloser c = false := by
  rw [← Bool.not_eq_true]
  intro hcloser
  simp only [isCloser, Bool.or_eq_true, beq_iff_eq] at hcloser
  rcases hcloser with (rfl | rfl) | rfl <;> revert h <;> decide

theorem not_isBlank_of_isValueQuote {c : Char} (h : isValueQuote c = true) : isBlank c = false := by
  simp only [isValueQuote, Bool.or_eq_true, beq_iff_eq] at h
  rcases h with rfl | rfl <;> decide

/-- Blanks and a bracket. -/
theorem matchParts_blanks_bracket {c : Char} (hc : isOpener c = true) {place : Cursor} {text : Text}
    {value : Option Text} :
    matchParts [.blanks, .exact [c]] place = some (text, value)
      ↔ ∃ gap more, place.rest = gap ++ c :: more ∧ (∀ d ∈ gap, isBlank d = true)
          ∧ text = gap ++ [c] ∧ value = none := by
  simp only [matchParts_cons, matchParts_nil, Part.take?_blanks, Part.take?_exact, Part.isValue]
  constructor
  · rintro ⟨gap, _, _, ⟨rest, hrest, hgap, -⟩, ⟨_, _, _, ⟨rfl, more, hmore⟩,
      ⟨rfl, rfl⟩, rfl, rfl⟩, rfl, rfl⟩
    refine ⟨gap, more, ?_, hgap, by simp, by simp⟩
    rw [Cursor.rest_skip, hrest, List.drop_left] at hmore
    rw [hrest, hmore, List.singleton_append]
  · rintro ⟨gap, more, hrest, hgap, rfl, rfl⟩
    refine ⟨gap, [c], none, ⟨c :: more, hrest, hgap, ?_⟩, ?_, rfl, by simp⟩
    · simp [not_isBlank_of_isOpener hc]
    · exact ⟨[c], [], none, ⟨rfl, more, by simp [Cursor.rest_skip, hrest]⟩,
        ⟨rfl, rfl⟩, rfl, by simp⟩

/-- Blanks and a value between quotes. -/
theorem matchParts_blanks_value {place : Cursor} {text : Text} {value : Option Text} :
    matchParts [.blanks, .quote, .anyValue, .quote] place = some (text, value)
      ↔ ∃ gap q body q' more, place.rest = gap ++ q :: (body ++ q' :: more)
          ∧ (∀ d ∈ gap, isBlank d = true) ∧ isValueQuote q = true ∧ body ≠ []
          ∧ (∀ d ∈ body, isValueQuote d = false) ∧ isValueQuote q' = true
          ∧ text = gap ++ q :: (body ++ [q']) ∧ value = some body := by
  simp only [matchParts_cons, matchParts_nil, Part.take?_blanks,
    Part.take?_quote, Part.take?_anyValue, Part.isValue]
  constructor
  · rintro ⟨gap, _, _, ⟨rest, hrest, hgap, -⟩, ⟨_, _, _, ⟨q, rest₁, hrest₁, hq, rfl⟩, ⟨body, _, _,
      ⟨hne, rest₂, hrest₂, hbody, -⟩, ⟨_, _, _, ⟨q', more, hmore, hq', rfl⟩,
      ⟨rfl, rfl⟩, rfl, rfl⟩, rfl, rfl⟩,
      rfl, rfl⟩, rfl, rfl⟩
    simp only [Cursor.rest_skip, hrest, List.drop_left] at hrest₁ hrest₂ hmore
    subst hrest₁
    simp only [List.length_cons, List.length_nil, List.drop_succ_cons,
      List.drop_zero] at hrest₂ hmore
    subst hrest₂
    rw [List.drop_left] at hmore
    subst hmore
    exact ⟨gap, q, body, q', more, hrest, hgap, hq, hne, hbody, hq', by simp, by simp⟩
  · rintro ⟨gap, q, body, q', more, hrest, hgap, hq, hne, hbody, hq', rfl, rfl⟩
    refine ⟨gap, q :: (body ++ [q']), some body, ⟨_, hrest, hgap, ?_⟩, ?_, rfl, rfl⟩
    · simp [not_isBlank_of_isValueQuote hq]
    refine ⟨[q], body ++ [q'], some body, ⟨q, body ++ q' :: more, ?_, hq, rfl⟩, ?_, rfl, rfl⟩
    · simp [Cursor.rest_skip, hrest]
    refine ⟨body, [q'], none, ⟨hne, q' :: more, ?_, hbody, ?_⟩, ?_, rfl, rfl⟩
    · simp [Cursor.rest_skip, hrest]
    · simp [hq']
    refine ⟨[q'], [], none, ⟨q', more, ?_, hq', rfl⟩, ⟨rfl, rfl⟩, rfl, by simp⟩
    simp [Cursor.rest_skip, hrest]

/-- Blanks and the given value between quotes. -/
theorem exists_of_matchParts_blanks_given {given : Text} {place : Cursor} {text : Text}
    {value : Option Text}
    (h : matchParts [.blanks, .quote, .value given, .quote] place = some (text, value)) :
    ∃ gap q q' more, place.rest = gap ++ q :: (given ++ q' :: more)
      ∧ (∀ d ∈ gap, isBlank d = true) ∧ isValueQuote q = true ∧ isValueQuote q' = true
      ∧ text = gap ++ q :: (given ++ [q']) ∧ value = some given := by
  simp only [matchParts_cons, matchParts_nil, Part.take?_blanks, Part.take?_quote,
    Part.take?_value, Part.isValue] at h
  obtain ⟨gap, _, _, ⟨rest, hrest, hgap, -⟩, ⟨_, _, _, ⟨q, rest₁, hrest₁, hq, rfl⟩, ⟨_, _, _,
    ⟨rfl, rest₂, hrest₂⟩, ⟨_, _, _, ⟨q', more, hmore, hq', rfl⟩, ⟨rfl, rfl⟩, rfl, rfl⟩,
    rfl, rfl⟩, rfl, rfl⟩, rfl, rfl⟩ := h
  simp only [Cursor.rest_skip, hrest, List.drop_left] at hrest₁ hrest₂ hmore
  subst hrest₁
  simp only [List.length_cons, List.length_nil, List.drop_succ_cons,
    List.drop_zero] at hrest₂ hmore
  rw [hrest₂, List.drop_left] at hmore
  subst hmore
  exact ⟨gap, q, q', more, by rw [hrest, hrest₂], hgap, hq, hq', by simp, by simp⟩

/-! ### The shapes -/

theorem match?_objectCall {function : Text} {place : Cursor} {found : Match} :
    (objectCall function).match? place = some found
      ↔ ∃ gap more, place.rest = function ++ '(' :: (gap ++ '{' :: more)
          ∧ (∀ c ∈ gap, isBlank c = true)
          ∧ found = ⟨place, function ++ '(' :: (gap ++ ['{']), none⟩ := by
  simp only [match?_eq_some_iff, objectCall, matchParts_exact,
    matchParts_blanks_bracket (c := '{') (by decide), Cursor.rest_skip]
  constructor
  · rintro ⟨hplace, ⟨rest, hrest⟩, _, ⟨gap, more, hmore, hgap, rfl, hvalue⟩, htext⟩
    rw [hrest, List.drop_left] at hmore
    subst hmore
    refine ⟨gap, more, by simpa using hrest, hgap, ?_⟩
    cases found
    simp_all
  · rintro ⟨gap, more, hrest, hgap, rfl⟩
    exact ⟨rfl, ⟨gap ++ '{' :: more, by simpa using hrest⟩, gap ++ ['{'],
      ⟨gap, more, by simp [hrest], hgap, rfl, rfl⟩, by simp⟩

theorem match?_keyList {name : Text} {place : Cursor} {found : Match} :
    (keyList name).match? place = some found
      ↔ isWordBoundary place.before place.rest.head? = true ∧ ∃ gap more,
          place.rest = name ++ ':' :: (gap ++ '[' :: more) ∧ (∀ c ∈ gap, isBlank c = true)
            ∧ found = ⟨place, name ++ ':' :: (gap ++ ['[']), none⟩ := by
  simp only [match?_eq_some_iff, keyList, matchParts_boundary, matchParts_exact,
    matchParts_blanks_bracket (c := '[') (by decide), Cursor.rest_skip]
  constructor
  · rintro ⟨hplace, hboundary, ⟨rest, hrest⟩, _, ⟨gap, more, hmore, hgap, rfl, hvalue⟩, htext⟩
    rw [hrest, List.drop_left] at hmore
    subst hmore
    refine ⟨hboundary, gap, more, by simpa using hrest, hgap, ?_⟩
    cases found
    simp_all
  · rintro ⟨hboundary, gap, more, hrest, hgap, rfl⟩
    exact ⟨rfl, hboundary, ⟨gap ++ '[' :: more, by simpa using hrest⟩, gap ++ ['['],
      ⟨gap, more, by simp [hrest], hgap, rfl, rfl⟩, by simp⟩

theorem match?_key {name : Text} {place : Cursor} {found : Match} :
    (key name).match? place = some found
      ↔ isWordBoundary place.before place.rest.head? = true ∧ ∃ gap q body q' more,
          place.rest = name ++ ':' :: (gap ++ q :: (body ++ q' :: more))
            ∧ (∀ c ∈ gap, isBlank c = true) ∧ isValueQuote q = true ∧ body ≠ []
            ∧ (∀ c ∈ body, isValueQuote c = false) ∧ isValueQuote q' = true
            ∧ found = ⟨place, name ++ ':' :: (gap ++ q :: (body ++ [q'])), some body⟩ := by
  simp only [match?_eq_some_iff, key, matchParts_boundary, matchParts_exact,
    matchParts_blanks_value, Cursor.rest_skip]
  constructor
  · rintro ⟨hplace, hboundary, ⟨rest, hrest⟩, _, ⟨gap, q, body, q', more, hmore, hgap,
      hq, hne, hbody, hq', rfl, hvalue⟩, htext⟩
    rw [hrest, List.drop_left] at hmore
    subst hmore
    refine ⟨hboundary, gap, q, body, q', more, by simpa using hrest, hgap, hq, hne, hbody, hq', ?_⟩
    cases found
    simp_all
  · rintro ⟨hboundary, gap, q, body, q', more, hrest, hgap, hq, hne, hbody, hq', rfl⟩
    exact ⟨rfl, hboundary, ⟨gap ++ q :: (body ++ q' :: more), by simpa using hrest⟩,
      gap ++ q :: (body ++ [q']),
      ⟨gap, q, body, q', more, by simp [hrest], hgap, hq, hne, hbody, hq', rfl, rfl⟩, by simp⟩

theorem match?_keyValue {name value gap more : Text} {q q' : Char} {place : Cursor}
    (hboundary : isWordBoundary place.before place.rest.head? = true)
    (hrest : place.rest = name ++ ':' :: (gap ++ q :: (value ++ q' :: more)))
    (hgap : ∀ c ∈ gap, isBlank c = true) (hq : isValueQuote q = true)
    (hq' : isValueQuote q' = true) :
    (keyValue name value).match? place
      = some ⟨place, name ++ ':' :: (gap ++ q :: (value ++ [q'])), some value⟩ := by
  have hstop : ∀ c ∈ (q :: (value ++ q' :: more)).head?, isBlank c = false := by
    simp [not_isBlank_of_isValueQuote hq]
  refine match?_eq_some_iff.mpr ⟨rfl, matchParts_boundary.mpr ⟨hboundary, matchParts_exact.mpr
    ⟨⟨_, by simpa using hrest⟩, gap ++ q :: (value ++ [q']), ?_, by simp⟩⟩⟩
  simp only [matchParts_cons, matchParts_nil, Part.take?_blanks, Part.take?_quote, Part.isValue,
    Cursor.rest_skip, hrest]
  refine ⟨gap, q :: (value ++ [q']), some value, ⟨q :: (value ++ q' :: more), by simp, hgap, hstop⟩,
    ?_, rfl, rfl⟩
  refine ⟨[q], value ++ [q'], some value, ⟨q, value ++ q' :: more, by simp, hq, rfl⟩, ?_, rfl, rfl⟩
  refine ⟨value, [q'], none, ?_, ?_, rfl, rfl⟩
  · simp [Part.take?, Cursor.rest_skip, hrest]
  · exact ⟨[q'], [], none, ⟨q', more, by simp, hq', rfl⟩, ⟨rfl, rfl⟩, rfl, by simp⟩

/-- The shape of a key with a given value, the other way round. -/
theorem exists_of_match?_keyValue {name given : Text} {place : Cursor} {found : Match}
    (h : (keyValue name given).match? place = some found) :
    isWordBoundary place.before place.rest.head? = true ∧ ∃ gap q q' more,
      place.rest = name ++ ':' :: (gap ++ q :: (given ++ q' :: more))
        ∧ (∀ c ∈ gap, isBlank c = true) ∧ isValueQuote q = true ∧ isValueQuote q' = true
        ∧ found = ⟨place, name ++ ':' :: (gap ++ q :: (given ++ [q'])), some given⟩ := by
  simp only [match?_eq_some_iff, keyValue, matchParts_boundary, matchParts_exact] at h
  obtain ⟨hplace, hboundary, ⟨rest, hrest⟩, tail, htail, htext⟩ := h
  obtain ⟨gap, q, q', more, hmore, hgap, hq, hq', rfl, hvalue⟩ :=
    exists_of_matchParts_blanks_given htail
  rw [Cursor.rest_skip, hrest, List.drop_left] at hmore
  subst hmore
  refine ⟨hboundary, gap, q, q', more, by simpa using hrest, hgap, hq, hq', ?_⟩
  cases found
  simp_all

/-! ### The search through a text -/

/-- The search ends at the first place where the pattern matches. -/
theorem first?_eq_some_iff {pattern : Pattern} {place : Cursor} {found : Match} :
    pattern.first? place = some found
      ↔ ∃ n ≤ place.rest.length, pattern.match? (place.skip n) = some found
          ∧ ∀ m < n, pattern.match? (place.skip m) = none := by
  obtain ⟨offset, before, rest⟩ := place
  rw [first?]
  induction rest generalizing offset before with
  | nil => simp [firstIn?, Cursor.skip]
  | cons c rest ih =>
    rw [firstIn?]
    split
    · rename_i here hhere
      constructor
      · rintro ⟨⟩
        exact ⟨0, Nat.zero_le _, hhere, by simp⟩
      · rintro ⟨n, -, hfound, hnone⟩
        cases n with
        | zero => exact hhere.symm.trans hfound
        | succ n => exact absurd (hnone 0 (Nat.succ_pos n)) (by simp [Cursor.skip, hhere])
    · rename_i hhere
      rw [ih (offset + 1) (some c)]
      constructor
      · rintro ⟨n, hn, hfound, hnone⟩
        refine ⟨n + 1, by simpa using hn, hfound, ?_⟩
        intro m hm
        cases m with
        | zero => exact hhere
        | succ m => exact hnone m (by omega)
      · rintro ⟨n, hn, hfound, hnone⟩
        cases n with
        | zero => simp [Cursor.skip, hhere] at hfound
        | succ n =>
          refine ⟨n, by simpa using hn, hfound, ?_⟩
          intro m hm
          exact hnone (m + 1) (by omega)

/-- The search finds nothing where the pattern matches nowhere. -/
theorem first?_eq_none_iff {pattern : Pattern} {place : Cursor} :
    pattern.first? place = none
      ↔ ∀ n ≤ place.rest.length, pattern.match? (place.skip n) = none := by
  obtain ⟨offset, before, rest⟩ := place
  rw [first?]
  induction rest generalizing offset before with
  | nil => simp [firstIn?, Cursor.skip]
  | cons c rest ih =>
    rw [firstIn?]
    split
    · rename_i here hhere
      constructor
      · intro h
        cases h
      · intro hnone
        exact absurd (hnone 0 (Nat.zero_le _)) (by simp [Cursor.skip, hhere])
    · rename_i hhere
      rw [ih (offset + 1) (some c)]
      constructor
      · intro hnone n hn
        cases n with
        | zero => exact hhere
        | succ n => exact hnone n (Nat.le_of_succ_le_succ hn)
      · intro hnone n hn
        exact hnone (n + 1) (Nat.succ_le_succ hn)

end Pattern

end GroqSnippets
