/-
The leftmost occurrences of a key.

A key occurs where it begins at a word boundary and a colon, blanks and a value between quotes follow.
Said so, an occurrence is a way to take the text apart, and nothing is said of patterns, of places or of
the order in which a search tries them.  At most one occurrence begins at each offset.

A search has some occurrences that it may come to: those at or behind the offset where it starts, or
those that begin at a character which the scan from there reads as code.  It comes to the leftmost of
these, and to nothing only if there are none.  A name and its type are three such searches, one for the
name, one behind it, and one through the whole text.
-/
import GroqSnippets.Proofs.Schema.Reading
import GroqSnippets.Proofs.Source.Enumeration
import Mathlib.Logic.IsEmpty.Basic

namespace GroqSnippets

/-! ### Occurrences

Two occurrences with the same start are the same, since the blanks, the quote and the value behind a
key are given by the text.  So the leftmost one is unique, and may be spoken of by its offset.
-/

/-- An occurrence of a key in a text, as a way to take the text apart: what stands before the key,
the blanks behind its colon, the two quotes, of whichever kind, with the value between them, and the
rest. -/
structure KeyOccurrence (key text : Text) where
  front : Text
  /-- What stands between the colon and the first quote. -/
  gap : Text
  opening : Char
  value : Text
  closing : Char
  back : Text
  spelled : text = front ++ (key ++ ':' :: (gap ++ opening :: (value ++ closing :: back)))
  boundary : isWordBoundary front.getLast? (key ++ [':']).head? = true
  blanks : ∀ c ∈ gap, isBlank c = true
  opens : isValueQuote opening = true
  /-- The value is not empty, and there is no quote in it. -/
  isValue : value.IsValue
  closes : isValueQuote closing = true

namespace KeyOccurrence

variable {key text : Text}

def start (occ : KeyOccurrence key text) : Nat :=
  occ.front.length

def run (occ : KeyOccurrence key text) : Text :=
  key ++ ':' :: (occ.gap ++ occ.opening :: (occ.value ++ [occ.closing]))

def stop (occ : KeyOccurrence key text) : Nat :=
  occ.start + occ.run.length

def toMatch (occ : KeyOccurrence key text) : Match :=
  ⟨Cursor.ofOffset text occ.start, occ.run, some occ.value⟩

def BeginsInCode (occ : KeyOccurrence key text) (n : Nat) : Prop :=
  ∃ c, (occ.start, .code c) ∈ text.seen n

/-- Whether an occurrence is the leftmost of those that satisfy a condition. -/
structure IsLeftmost (occ : KeyOccurrence key text) (among : KeyOccurrence key text → Prop) : Prop where
  isAmong : among occ
  least : ∀ other, among other → occ.start ≤ other.start

/-- Whether a type belongs to a name: it is the leftmost one that begins where the name ends or further
on, or the leftmost one of all if none begins there. -/
def IsTypeOf (second : KeyOccurrence "type".toList text) (first : KeyOccurrence "name".toList text) :
    Prop :=
  second.IsLeftmost (first.stop ≤ ·.start)
    ∨ (∀ other : KeyOccurrence "type".toList text, other.start < first.stop)
      ∧ second.IsLeftmost fun _ => True

theorem rest_start (occ : KeyOccurrence key text) :
    (Cursor.ofOffset text occ.start).rest
      = key ++ ':' :: (occ.gap ++ occ.opening :: (occ.value ++ occ.closing :: occ.back)) := by
  have hdrop := congrArg (List.drop occ.front.length) occ.spelled
  rwa [List.drop_left, ← Cursor.rest_ofOffset] at hdrop

theorem before_start (occ : KeyOccurrence key text) :
    (Cursor.ofOffset text occ.start).before = occ.front.getLast? := by
  have htake := congrArg (List.take occ.front.length) occ.spelled
  rw [List.take_left] at htake
  rw [Cursor.before_ofOffset, start, htake]

theorem start_lt_length (occ : KeyOccurrence key text) : occ.start < text.length := by
  have hlength := congrArg List.length occ.rest_start
  rw [Cursor.rest_ofOffset, List.length_drop] at hlength
  simp only [List.length_append, List.length_cons] at hlength
  omega

theorem offset_toMatch (occ : KeyOccurrence key text) : occ.toMatch.place.offset = occ.start := by
  rw [toMatch, Cursor.offset_ofOffset, Nat.min_eq_left (Nat.le_of_lt occ.start_lt_length)]

theorem stop_toMatch (occ : KeyOccurrence key text) :
    occ.toMatch.stop = Cursor.ofOffset text occ.stop := by
  rw [Match.stop, toMatch, Cursor.ofOffset_skip, stop]

end KeyOccurrence

/-! ### Where a pattern matches -/

section

variable {key text value : Text} {n : Nat} {found : Match}

/-- Whether a pattern matches at the occurrences of a key that satisfy a condition, and nowhere else. -/
def Pattern.Finds (pattern : Pattern) (asked : KeyOccurrence key text → Prop) : Prop :=
  ∀ n found, pattern.match? (Cursor.ofOffset text n) = some found
    ↔ ∃ occ, asked occ ∧ occ.start = n ∧ found = occ.toMatch

/-- What stands before the colon begins as the text does. -/
theorem head?_append_colon (key more : Text) : (key ++ ':' :: more).head? = (key ++ [':']).head? := by
  cases key <;> rfl

theorem Pattern.Finds.match?_start {pattern : Pattern} {asked : KeyOccurrence key text → Prop}
    (h : pattern.Finds asked) (occ : KeyOccurrence key text) (hocc : asked occ) :
    pattern.match? (Cursor.ofOffset text occ.start) = some occ.toMatch :=
  (h _ _).mpr ⟨occ, hocc, rfl, rfl⟩

theorem Pattern.finds_key :
    (Pattern.key key).Finds fun _ : KeyOccurrence key text => True := by
  intro n found
  rw [match?_key]
  constructor
  · rintro ⟨hboundary, gap, q, value, q', back, hrest, hgap, hq, hne, hvalue, hq', rfl⟩
    have hdrop : text.drop n = _ := (Cursor.rest_ofOffset text n).symm.trans hrest
    have hn : n ≤ text.length := by
      by_contra hlt
      rw [List.drop_eq_nil_of_le (by omega)] at hdrop
      simp at hdrop
    rw [hrest, Cursor.before_ofOffset, head?_append_colon] at hboundary
    refine ⟨⟨text.take n, gap, q, value, q', back, ?_, hboundary, hgap, hq,
      .of_not_isValueQuote hne hvalue, hq'⟩, trivial, ?_, ?_⟩
    · rw [← hdrop, List.take_append_drop]
    · exact List.length_take_of_le hn
    · rw [KeyOccurrence.toMatch, KeyOccurrence.start, List.length_take_of_le hn]
      rfl
  · rintro ⟨occ, -, rfl, rfl⟩
    refine ⟨?_, occ.gap, occ.opening, occ.value, occ.closing, occ.back, occ.rest_start, occ.blanks,
      occ.opens, occ.isValue.nonempty, occ.isValue.not_isValueQuote, occ.closes, rfl⟩
    rw [occ.rest_start, occ.before_start, head?_append_colon]
    exact occ.boundary

/-- A key with a given value is matched where the key is matched with that value. -/
theorem Pattern.match?_keyValue_iff (hvalue : value.IsValue) {place : Cursor} :
    (keyValue key value).match? place = some found
      ↔ (Pattern.key key).match? place = some found ∧ found.value = some value := by
  constructor
  · intro h
    obtain ⟨hboundary, gap, q, q', more, hrest, hgap, hq, hq', rfl⟩ := exists_of_match?_keyValue h
    exact ⟨match?_key.mpr ⟨hboundary, gap, q, value, q', more, hrest, hgap, hq, hvalue.nonempty,
      hvalue.not_isValueQuote, hq', rfl⟩, rfl⟩
  · rintro ⟨h, hread⟩
    obtain ⟨hboundary, gap, q, body, q', more, hrest, hgap, hq, -, -, hq', rfl⟩ := match?_key.mp h
    obtain rfl := Option.some.inj hread
    exact match?_keyValue hboundary hrest hgap hq hq'

theorem Pattern.finds_keyValue (hvalue : value.IsValue) :
    (keyValue key value).Finds fun occ : KeyOccurrence key text => occ.value = value := by
  intro n found
  rw [match?_keyValue_iff hvalue, finds_key]
  constructor
  · rintro ⟨⟨occ, -, hstart, rfl⟩, hread⟩
    exact ⟨occ, Option.some.inj hread, hstart, rfl⟩
  · rintro ⟨occ, rfl, hstart, rfl⟩
    exact ⟨⟨occ, trivial, hstart, rfl⟩, rfl⟩

theorem KeyOccurrence.toMatch_eq_of_start_eq {a b : KeyOccurrence key text} (h : a.start = b.start) :
    a.toMatch = b.toMatch := by
  have ha := Pattern.finds_key.match?_start a trivial
  have hb := Pattern.finds_key.match?_start b trivial
  rw [h, hb] at ha
  exact (Option.some.inj ha).symm

end

/-! ### What a search comes to

That a search answers with the leftmost occurrence has two halves: it answers with one of those it
may come to, and it passes over none.  Both are proved from where the search stands, one character
or one lexeme after the other.
-/

section

variable {key text : Text} {among : KeyOccurrence key text → Prop} {result : Option Match} {n : Nat}

/-- What a search comes to, by the occurrences that it may come to. -/
inductive ComesTo (among : KeyOccurrence key text → Prop) : Option Match → Prop where
  | nothing (hnone : ∀ occ, ¬ among occ) : ComesTo among none
  | leftmost {occ : KeyOccurrence key text} (h : occ.IsLeftmost among) :
      ComesTo among (some occ.toMatch)

namespace ComesTo

/-- A search comes to the leftmost occurrence if it comes to one of them, and to an end in front of
none. -/
theorem of_reaches
    (hreaches : ∀ occ, among occ → ∃ first, result = some first ∧ first.place.offset ≤ occ.start)
    (hsound : ∀ found, result = some found → ∃ occ, among occ ∧ found = occ.toMatch) :
    ComesTo among result := by
  cases result with
  | none =>
    refine .nothing fun occ hocc => ?_
    obtain ⟨first, hfirst, -⟩ := hreaches occ hocc
    cases hfirst
  | some found =>
    obtain ⟨occ, hocc, rfl⟩ := hsound found rfl
    refine .leftmost ⟨hocc, fun other hother => ?_⟩
    obtain ⟨first, hfirst, hle⟩ := hreaches other hother
    rwa [← Option.some.inj hfirst, occ.offset_toMatch] at hle

theorem eq_none_iff (h : ComesTo among result) : result = none ↔ ∀ occ, ¬ among occ := by
  cases h with
  | nothing hnone => exact iff_of_true rfl hnone
  | @leftmost occ hleft =>
    exact iff_of_false (Option.some_ne_none _) fun hnone => hnone occ hleft.isAmong

theorem eq_some_iff (h : ComesTo among result) {found : Match} :
    result = some found
      ↔ ∃ occ : KeyOccurrence key text, occ.IsLeftmost among ∧ found = occ.toMatch := by
  cases h with
  | nothing hnone =>
    refine iff_of_false (fun hsome => Option.some_ne_none _ hsome.symm) ?_
    rintro ⟨occ, hleft, -⟩
    exact hnone occ hleft.isAmong
  | @leftmost occ hleft =>
    rw [Option.some.injEq]
    constructor
    · rintro rfl
      exact ⟨occ, hleft, rfl⟩
    · rintro ⟨other, hother, rfl⟩
      -- Each of the two begins no later than the other one.
      refine KeyOccurrence.toMatch_eq_of_start_eq (Nat.le_antisymm ?_ ?_)
      · exact hleft.least other hother.isAmong
      · exact hother.least occ hleft.isAmong

/-- Among occurrences there is a leftmost one, for the search comes to it. -/
theorem exists_leftmost (h : ComesTo among result) (occ : KeyOccurrence key text) (hocc : among occ) :
    ∃ first : KeyOccurrence key text, first.IsLeftmost among := by
  cases h with
  | nothing hnone => exact absurd hocc (hnone occ)
  | @leftmost first hleft => exact ⟨first, hleft⟩

end ComesTo

/-- No search comes to an end in front of a place where its pattern matches. -/
theorem Pattern.exists_first?_of_match? {pattern : Pattern} {m : Nat} {found : Match} (hn : n ≤ m)
    (hm : m ≤ text.length) (hmatch : pattern.match? (Cursor.ofOffset text m) = some found) :
    ∃ first, pattern.first? (Cursor.ofOffset text n) = some first ∧ first.place.offset ≤ m := by
  obtain ⟨k, rfl⟩ := Nat.exists_eq_add_of_le hn
  rw [← Cursor.ofOffset_skip] at hmatch
  cases hfirst : pattern.first? (Cursor.ofOffset text n) with
  | none =>
    have hk : k ≤ (Cursor.ofOffset text n).rest.length := by
      rw [Cursor.rest_ofOffset, List.length_drop]
      omega
    rw [first?_eq_none_iff.mp hfirst k hk] at hmatch
    cases hmatch
  | some first =>
    obtain ⟨j, -, hhere, hnone⟩ := first?_eq_some_iff.mp hfirst
    have hj : j ≤ k := by
      by_contra hlt
      rw [hnone k (Nat.lt_of_not_le hlt)] at hmatch
      cases hmatch
    refine ⟨first, rfl, ?_⟩
    rw [place_of_match? hhere, Cursor.ofOffset_skip, Cursor.offset_ofOffset]
    omega

/-- A search for a key comes to the leftmost occurrence at or behind the offset where it starts. -/
theorem Pattern.comesTo_first? (key text : Text) (n : Nat) :
    ComesTo (fun occ : KeyOccurrence key text => n ≤ occ.start)
      ((Pattern.key key).first? (Cursor.ofOffset text n)) := by
  refine .of_reaches ?_ ?_
  · intro occ hn
    exact exists_first?_of_match? hn (Nat.le_of_lt occ.start_lt_length) (finds_key.match?_start occ trivial)
  · intro found hfound
    obtain ⟨k, -, hmatch, -⟩ := first?_eq_some_iff.mp hfound
    rw [Cursor.ofOffset_skip] at hmatch
    obtain ⟨occ, -, hstart, rfl⟩ := (finds_key _ _).mp hmatch
    exact ⟨occ, by omega, rfl⟩

theorem Pattern.comesTo_first?_ofText (key text : Text) :
    ComesTo (fun _ : KeyOccurrence key text => True) ((Pattern.key key).first? (Cursor.ofText text)) := by
  have hstart : Cursor.ofText text = Cursor.ofOffset text 0 := rfl
  rw [hstart]
  simpa using comesTo_first? key text 0

/-- What a search in code finds begins at a character that its scan reads as code. -/
theorem Pattern.exists_seen_of_firstInCode? {pattern : Pattern} {found : Match}
    (h : pattern.firstInCode? (Cursor.ofOffset text n) = some found) :
    ∃ c, (found.place.offset, .code c) ∈ text.seen n := by
  rw [firstInCode?_eq] at h
  obtain ⟨token, htoken, hfound⟩ := List.exists_of_findSome?_eq_some h
  rw [place_of_matchToken? hfound]
  unfold matchToken? at hfound
  split at hfound
  · rename_i c hcode
    exact ⟨c, List.mem_map.mpr ⟨token, htoken, by rw [hcode]⟩⟩
  · cases hfound

/-- A search in code comes to the leftmost occurrence that begins in code. -/
theorem Pattern.Finds.comesTo_firstInCode? {pattern : Pattern} {asked : KeyOccurrence key text → Prop}
    (h : pattern.Finds asked) (n : Nat) :
    ComesTo (fun occ => asked occ ∧ occ.BeginsInCode n)
      (pattern.firstInCode? (Cursor.ofOffset text n)) := by
  refine .of_reaches ?_ ?_
  · rintro occ ⟨hasked, c, hcode⟩
    exact exists_firstInCode?_of_match? hcode (h.match?_start occ hasked)
  · intro found hfound
    obtain ⟨_, _, _, -, hplace, -, -, hmatch, -⟩ := exists_split_of_firstInCode? hfound
    have hcode := exists_seen_of_firstInCode? hfound
    rw [hplace] at hmatch
    obtain ⟨occ, hasked, -, rfl⟩ := (h _ _).mp hmatch
    rw [occ.offset_toMatch] at hcode
    exact ⟨occ, ⟨hasked, hcode⟩, rfl⟩

end

/-! ### Names and types

A type in front of the name counts only when there is none behind it.  So the search for it is two
searches, of which the second is asked only if the first comes to nothing.
-/

section

variable {text name type : Text} {first : KeyOccurrence "name".toList text}

theorem first?_type_eq_some_iff {found : Match} :
    (typePattern.first? first.toMatch.stop).or (typePattern.first? (Cursor.ofText text)) = some found
      ↔ ∃ second : KeyOccurrence "type".toList text, second.IsTypeOf first
          ∧ found = second.toMatch := by
  have hbehind := Pattern.comesTo_first? "type".toList text first.stop
  have hwhole := Pattern.comesTo_first?_ofText "type".toList text
  rw [first.stop_toMatch, Option.or_eq_some_iff, typePattern, hbehind.eq_some_iff, hbehind.eq_none_iff,
    hwhole.eq_some_iff]
  simp only [Nat.not_le]
  constructor
  · rintro (⟨second, hleft, rfl⟩ | ⟨hnone, second, hleft, rfl⟩)
    · exact ⟨second, .inl hleft, rfl⟩
    · exact ⟨second, .inr ⟨hnone, hleft⟩, rfl⟩
  · rintro ⟨second, hleft | ⟨hnone, hleft⟩, rfl⟩
    · exact .inl ⟨second, hleft, rfl⟩
    · exact .inr ⟨hnone, second, hleft, rfl⟩

theorem exists_isLeftmost {key : Text} (occ : KeyOccurrence key text) :
    ∃ leftmost : KeyOccurrence key text, leftmost.IsLeftmost fun _ => True :=
  (Pattern.comesTo_first?_ofText key text).exists_leftmost occ trivial

/-- Where a type occurs, one belongs to the name. -/
theorem exists_isTypeOf (first : KeyOccurrence "name".toList text)
    (h : Nonempty (KeyOccurrence "type".toList text)) :
    ∃ second : KeyOccurrence "type".toList text, second.IsTypeOf first := by
  obtain ⟨occ⟩ := h
  by_cases hbehind : ∃ other : KeyOccurrence "type".toList text, first.stop ≤ other.start
  · obtain ⟨other, hother⟩ := hbehind
    obtain ⟨second, hleft⟩ :=
      (Pattern.comesTo_first? "type".toList text first.stop).exists_leftmost other hother
    exact ⟨second, .inl hleft⟩
  · obtain ⟨second, hleft⟩ := exists_isLeftmost occ
    have hnone (other : KeyOccurrence "type".toList text) : other.start < first.stop :=
      Nat.lt_of_not_le fun hle => hbehind ⟨other, hle⟩
    exact ⟨second, .inr ⟨hnone, hleft⟩⟩

theorem nameAndType?_eq_values_iff :
    nameAndType? text = some (name, type)
      ↔ ∃ (first : KeyOccurrence "name".toList text) (second : KeyOccurrence "type".toList text),
          first.IsLeftmost (fun _ => True) ∧ second.IsTypeOf first
            ∧ first.value = name ∧ second.value = type := by
  have hname := Pattern.comesTo_first?_ofText "name".toList text
  rw [nameAndType?_eq_some_iff]
  constructor
  · rintro ⟨found, found', hfound, hread, hfound', hread'⟩
    obtain ⟨first, hleft, rfl⟩ := hname.eq_some_iff.mp hfound
    obtain ⟨second, hsecond, rfl⟩ := first?_type_eq_some_iff.mp hfound'
    exact ⟨first, second, hleft, hsecond, Option.some.inj hread, Option.some.inj hread'⟩
  · rintro ⟨first, second, hleft, hsecond, rfl, rfl⟩
    exact ⟨first.toMatch, second.toMatch, hname.eq_some_iff.mpr ⟨first, hleft, rfl⟩, rfl,
      first?_type_eq_some_iff.mpr ⟨second, hsecond, rfl⟩, rfl⟩

theorem nameAndType?_eq_none_iff :
    nameAndType? text = none
      ↔ IsEmpty (KeyOccurrence "name".toList text) ∨ IsEmpty (KeyOccurrence "type".toList text) := by
  constructor
  · intro hnone
    by_contra hboth
    obtain ⟨hname, htype⟩ := not_or.mp hboth
    obtain ⟨occ⟩ := not_isEmpty_iff.mp hname
    obtain ⟨first, hfirst⟩ := exists_isLeftmost occ
    obtain ⟨second, hsecond⟩ := exists_isTypeOf first (not_isEmpty_iff.mp htype)
    have hsome := nameAndType?_eq_values_iff.mpr ⟨first, second, hfirst, hsecond, rfl, rfl⟩
    rw [hnone] at hsome
    cases hsome
  · intro habsent
    rw [Option.eq_none_iff_forall_ne_some]
    rintro ⟨name, type⟩ hsome
    obtain ⟨first, second, -⟩ := nameAndType?_eq_values_iff.mp hsome
    rcases habsent with hname | htype
    · exact hname.false first
    · exact htype.false second

end

/-- **Keys are looked up leftmost and completely.**  No name and type are answered just when one of the
two keys does not occur in the text.  If they are answered, they are the values of the leftmost name and
of the leftmost type behind it, or of the leftmost type of all if there is none behind the name.  A
search in code for a key, or for the mark of an inline object, comes to the leftmost occurrence that
begins at a character which the scan from the start of the search reads as code. -/
theorem keys_found_leftmost (text : Text) :
    (nameAndType? text = none
      ↔ IsEmpty (KeyOccurrence "name".toList text) ∨ IsEmpty (KeyOccurrence "type".toList text))
    ∧ (∀ name type, nameAndType? text = some (name, type)
      ↔ ∃ (first : KeyOccurrence "name".toList text) (second : KeyOccurrence "type".toList text),
          first.IsLeftmost (fun _ => True) ∧ second.IsTypeOf first
            ∧ first.value = name ∧ second.value = type)
    ∧ ∀ start,
      (∀ key, ComesTo (fun occ : KeyOccurrence key text => occ.BeginsInCode start)
        ((Pattern.key key).firstInCode? (Cursor.ofOffset text start)))
      ∧ ComesTo (fun occ : KeyOccurrence "type".toList text =>
          occ.value = "object".toList ∧ occ.BeginsInCode start)
        (objectPattern.firstInCode? (Cursor.ofOffset text start)) := by
  refine ⟨nameAndType?_eq_none_iff, fun name type => nameAndType?_eq_values_iff, ?_⟩
  intro start
  constructor
  · intro key
    simpa using Pattern.finds_key.comesTo_firstInCode? start
  · have hobject : Text.IsValue "object".toList := ⟨by decide, by decide, by decide⟩
    exact (Pattern.finds_keyValue hobject).comesTo_firstInCode? start

/-- A type in front of the name is taken only if none follows the name. -/
example :
    nameAndType? "type: 'a', name: 'b', type: 'c'".toList = some ("b".toList, "c".toList)
    ∧ nameAndType? "type: 'a', name: 'b'".toList = some ("b".toList, "a".toList) := by
  decide +kernel

end GroqSnippets
