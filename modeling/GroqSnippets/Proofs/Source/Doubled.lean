/-
One line feed more.

What stands directly in a block may have one of its line feeds twice.  To a key and its value that
makes no difference but one: blanks may be one longer, and so may the value that the line feed is in.
What else a key consists of holds no line feed, and at a line feed itself no key begins.

So a search in either text ends at the same occurrence.  A value begins behind a quote, so the one
that differs is the text between the two quotes around the line feed.
-/
import GroqSnippets.Proofs.Schema.Reading
import GroqSnippets.Proofs.Source.Around

namespace GroqSnippets

/-! ### Answers that belong together -/

section

variable {α β γ δ : Type} {r : α → β → Prop} {s : γ → δ → Prop} {x : Option α} {y : Option β}

theorem rel_bind {f : α → Option γ} {g : β → Option δ} (h : Option.Rel r x y)
    (hnext : ∀ a b, r a b → Option.Rel s (f a) (g b)) : Option.Rel s (x.bind f) (y.bind g) := by
  cases h with
  | none => exact .none
  | some hab => exact hnext _ _ hab

theorem rel_map {f : α → γ} {g : β → δ} (h : Option.Rel r x y)
    (hmap : ∀ a b, r a b → s (f a) (g b)) : Option.Rel s (x.map f) (y.map g) := by
  cases h with
  | none => exact .none
  | some hab => exact .some (hmap _ _ hab)

theorem rel_mono {r' : α → β → Prop} (h : Option.Rel r x y) (hmono : ∀ a b, r a b → r' a b) :
    Option.Rel r' x y := by
  cases h with
  | none => exact .none
  | some hab => exact .some (hmono _ _ hab)

theorem rel_or {x' : Option α} {y' : Option β} (h : Option.Rel r x y) (h' : Option.Rel r x' y') :
    Option.Rel r (x.or x') (y.or y') := by
  cases h with
  | none => exact h'
  | some hab => exact .some hab

end

/-! ### A line more

The line is given by the texts that may be read over it: the text between two quotes as it was, and
with a line feed more.  What else there is to know of a place is how far back the text is known, since
the first of the two quotes may lie before the place.
-/

/-- A comment on a line of its own, and the texts between quotes that reach over it. -/
structure Line where
  note : Text
  across : List Text
  broken : ∀ text ∈ across, '\n' ∈ text

namespace Line

variable {line : Line}

/-- Two values that are the same, or both reach over the line. -/
def Moves (line : Line) (value value' : Text) : Prop :=
  value = value' ∨ value ∈ line.across ∧ value' ∈ line.across

theorem Moves.eq_of_notMem {value value' : Text} (h : line.Moves value value')
    (hvalue : value ∉ line.across) : value = value' :=
  h.resolve_right fun hover => hvalue hover.1

/-- A text that does not reach over the line is the one value when it is the other. -/
theorem Moves.eq_iff {value value' : Text} (h : line.Moves value value') {text : Text}
    (htext : text ∉ line.across) : value = text ↔ value' = text := by
  rcases h with rfl | ⟨hvalue, hvalue'⟩
  · rfl
  · exact ⟨fun heq => absurd (heq ▸ hvalue) htext, fun heq => absurd (heq ▸ hvalue') htext⟩

theorem notMem_across {text : Text} (htext : '\n' ∉ text) : text ∉ line.across :=
  fun hover => htext (line.broken text hover)

/-- Whether the line feed between two texts is that before the line, or one more.  Before the first
text stands a character. -/
def Meets (line : Line) (before : Option Char) (front back : Text) : Prop :=
  ∃ level, before.toList ++ front <:+ level ∧ betweenQuotes level back ∈ line.across
    ∧ betweenQuotes level ('\n' :: back) ∈ line.across

theorem Meets.of_suffix {front front' back : Text} (h : line.Meets none front back)
    (hfront : front' <:+ front) : line.Meets none front' back := by
  obtain ⟨level, hlevel, hover⟩ := h
  exact ⟨level, hfront.trans hlevel, hover⟩

/-- Further on in the first text. -/
theorem Meets.skip {before : Option Char} {run front back : Text}
    (h : line.Meets before (run ++ front) back) :
    line.Meets (run.getLast?.or before) front back := by
  obtain ⟨level, hlevel, hover⟩ := h
  refine ⟨level, List.IsSuffix.trans ?_ hlevel, hover⟩
  cases hlast : run.getLast? with
  | none =>
    rw [List.getLast?_eq_none_iff.mp hlast]
    exact List.suffix_rfl
  | some c =>
    obtain ⟨run, rfl⟩ := List.getLast?_eq_some_iff.mp hlast
    exact ⟨before.toList ++ run, by simp⟩

/-- Behind a quote, the run up to the next one reaches over the line. -/
theorem Meets.moves {q : Char} {front back : Text} (h : line.Meets (some q) front back)
    (hq : isValueQuote q = true) (hfront : ∀ c ∈ front, isValueQuote c = false) :
    line.Moves (front ++ '\n' :: back.takeWhile (!isValueQuote ·))
      (front ++ '\n' :: '\n' :: back.takeWhile (!isValueQuote ·)) := by
  obtain ⟨level, hlevel, hover, hover'⟩ := h
  rw [betweenQuotes, rtakeWhile_of_suffix hq hfront hlevel] at hover hover'
  exact .inr ⟨hover, hover'⟩

end Line

/-! ### Places

The character before a place decides whether a word begins there.  It is the same on both sides,
since what is doubled is a line feed, and no line feed is part of a word.
-/

/-- Two places with the same character before them and the same behind them, or with the line feed
before the line and one more in what is behind the second one. -/
inductive Beside (line : Line) (place other : Cursor) : Prop where
  | same (hbefore : place.before = other.before) (hrest : place.rest = other.rest)
  | seam (front back : Text) (hbefore : place.before = other.before)
      (hrest : place.rest = front ++ '\n' :: back) (hother : other.rest = front ++ '\n' :: '\n' :: back)
      (hmeets : line.Meets place.before front back)

namespace Beside

variable {line : Line} {place other : Cursor}

theorem before (h : Beside line place other) : place.before = other.before := by
  cases h with
  | same hbefore => exact hbefore
  | seam front back hbefore => exact hbefore

theorem head? (h : Beside line place other) : place.rest.head? = other.rest.head? := by
  cases h with
  | same hbefore hrest => rw [hrest]
  | seam front back hbefore hrest hother => cases front <;> simp [hrest, hother]

theorem skip_same (hbefore : place.before = other.before) (hrest : place.rest = other.rest)
    (count : Nat) : Beside line (place.skip count) (other.skip count) :=
  .same (by rw [Cursor.skip_eq, Cursor.skip_eq, hbefore, hrest])
    (by rw [Cursor.rest_skip, Cursor.rest_skip, hrest])

/-- Behind a run that both have before the line feed. -/
theorem skip_seam {run front back : Text} (hbefore : place.before = other.before)
    (hrest : place.rest = run ++ front ++ '\n' :: back)
    (hother : other.rest = run ++ front ++ '\n' :: '\n' :: back)
    (hmeets : line.Meets place.before (run ++ front) back) :
    Beside line (place.skip run.length) (other.skip run.length) := by
  have hplace : (place.skip run.length).before = run.getLast?.or place.before := by
    simp [Cursor.skip_eq, hrest]
  refine .seam front back ?_ ?_ ?_ (hplace ▸ hmeets.skip)
  · rw [hplace]
    simp [Cursor.skip_eq, hother, hbefore]
  · simp [Cursor.rest_skip, hrest]
  · simp [Cursor.rest_skip, hother]

end Beside

/-! ### Runs -/

section

variable {line : Line} {place other : Cursor}

/-- A text without a line feed stands at the head of both or of neither. -/
theorem isPrefixOf_beside {text : Text} (htext : '\n' ∉ text) (h : Beside line place other) :
    text.isPrefixOf place.rest = text.isPrefixOf other.rest
      ∧ (text.isPrefixOf place.rest = true →
        Beside line (place.skip text.length) (other.skip text.length)) := by
  cases h with
  | same hbefore hrest => exact ⟨by rw [hrest], fun _ => Beside.skip_same hbefore hrest _⟩
  | seam front back hbefore hrest hother hmeets =>
    have hfits : ∀ more, text.isPrefixOf (front ++ '\n' :: more) = text.isPrefixOf front := by
      intro more
      rw [Bool.eq_iff_iff, List.isPrefixOf_iff_prefix, List.isPrefixOf_iff_prefix]
      refine ⟨?_, fun hfront => hfront.trans (List.prefix_append front _)⟩
      rintro ⟨behind, hsplit⟩
      obtain ⟨rest, hfront, -⟩ := exists_of_append_eq_left htext hsplit
      exact ⟨rest, hfront.symm⟩
    rw [hrest, hother, hfits, hfits]
    refine ⟨rfl, fun hfront => ?_⟩
    obtain ⟨rest, rfl⟩ := List.isPrefixOf_iff_prefix.mp hfront
    exact Beside.skip_seam hbefore hrest hother hmeets

/-- A stretch that may hold line feeds ends at the same place in both. -/
theorem span_beside {p : Char → Bool} (hp : p '\n' = true) (h : Beside line place other) :
    Beside line (place.skip (place.rest.takeWhile p).length)
        (other.skip (other.rest.takeWhile p).length)
      ∧ (place.rest.takeWhile p = other.rest.takeWhile p
        ∨ ∃ front back, (∀ c ∈ front, p c = true) ∧ line.Meets place.before front back
          ∧ place.rest.takeWhile p = front ++ '\n' :: back.takeWhile p
          ∧ other.rest.takeWhile p = front ++ '\n' :: '\n' :: back.takeWhile p) := by
  cases h with
  | same hbefore hrest =>
    rw [hrest]
    exact ⟨Beside.skip_same hbefore hrest _, .inl rfl⟩
  | seam front back hbefore hrest hother hmeets =>
    rw [hrest, hother, List.takeWhile_append, List.takeWhile_append]
    split
    · rename_i hlength
      have hwhole := (List.takeWhile_sublist p).eq_of_length hlength
      have hall : ∀ c ∈ front, p c = true := by
        intro c hc
        rw [← hwhole] at hc
        exact List.mem_takeWhile_imp hc
      have htwo : ('\n' :: '\n' :: back).takeWhile p = '\n' :: '\n' :: back.takeWhile p := by
        rw [List.takeWhile_cons_of_pos hp, List.takeWhile_cons_of_pos hp]
      rw [List.takeWhile_cons_of_pos hp, htwo]
      refine ⟨?_, .inr ⟨front, back, hall, hmeets, rfl, rfl⟩⟩
      -- The line feed is behind both places.
      have hsplit : place.rest = (front ++ '\n' :: back.takeWhile p) ++ back.dropWhile p := by
        simp [hrest]
      have hsplit' : other.rest
          = (front ++ '\n' :: '\n' :: back.takeWhile p) ++ back.dropWhile p := by
        simp [hother]
      refine .same ?_ ?_
      · rw [Cursor.skip_eq, Cursor.skip_eq, hsplit, hsplit', List.take_left, List.take_left]
        simp [List.getLast?_append, List.getLast?_cons]
      · rw [Cursor.rest_skip, Cursor.rest_skip, hsplit, hsplit', List.drop_left, List.drop_left]
    · have hsplit := (List.takeWhile_append_dropWhile (p := p) (l := front)).symm
      refine ⟨?_, .inl rfl⟩
      rw [hsplit] at hrest hother hmeets
      exact Beside.skip_seam hbefore hrest hother hmeets

end

/-! ### Parts and patterns -/

/-- Whether what a part spells out is free of line feeds. -/
def Part.IsInline : Part → Prop
  | .exact text | .value text => '\n' ∉ text
  | _ => True

/-- Whether a value of any kind stands only behind a quote. -/
def Part.Follows (part next : Part) : Prop :=
  next = .anyValue → part = .quote

/-- What two occurrences have in common: where they end, and their values. -/
def Alike (line : Line) (found found' : Match) : Prop :=
  Beside line found.stop found'.stop ∧ Option.Rel line.Moves found.value found'.value

section

variable {line : Line} {place other : Cursor}

/-- A text that is given is taken on both sides or on none. -/
theorem given_beside {text : Text} (htext : '\n' ∉ text) (h : Beside line place other) :
    Option.Rel (fun run run' => Beside line (place.skip run.length) (other.skip run'.length)
        ∧ line.Moves run run')
      (if text.isPrefixOf place.rest then some text else none)
      (if text.isPrefixOf other.rest then some text else none) := by
  obtain ⟨hsame, hbehind⟩ := isPrefixOf_beside htext h
  rw [← hsame]
  split
  · rename_i hfits
    exact .some ⟨hbehind hfits, .inl rfl⟩
  · exact .none

/-- A value of any kind is the same on both sides, or reaches over the line on both. -/
theorem anyValue_beside (hquote : place.before.any isValueQuote = true)
    (h : Beside line place other) :
    Option.Rel (fun run run' => Beside line (place.skip run.length) (other.skip run'.length)
        ∧ line.Moves run run')
      (Part.anyValue.take? place) (Part.anyValue.take? other) := by
  obtain ⟨hbehind, hruns⟩ := span_beside (p := (!isValueQuote ·)) (by decide) h
  have hmoves : line.Moves (place.rest.takeWhile (!isValueQuote ·))
      (other.rest.takeWhile (!isValueQuote ·)) := by
    rcases hruns with hsame | ⟨front, back, hfront, hmeets, hrun, hrun'⟩
    · exact .inl hsame
    · obtain ⟨q, hq⟩ := Option.isSome_iff_exists.mp (Option.isSome_of_any hquote)
      rw [hq] at hmeets hquote
      rw [hrun, hrun']
      exact hmeets.moves hquote fun c hc => by simpa using hfront c hc
  simp only [Part.take?]
  generalize place.rest.takeWhile (!isValueQuote ·) = run at hbehind hmoves
  generalize other.rest.takeWhile (!isValueQuote ·) = run' at hbehind hmoves
  have hempty : run = [] ↔ run' = [] := hmoves.eq_iff (Line.notMem_across (by simp))
  cases run with
  | nil =>
    rw [hempty.mp rfl]
    exact .none
  | cons c run =>
    cases run' with
    | nil => cases hempty.mpr rfl
    | cons c' run' => exact .some ⟨hbehind, hmoves⟩

/-- A part takes runs that end beside each other, and their values are the same but for the line. -/
theorem Part.take?_beside {part : Part} (hpart : part.IsInline)
    (hquote : part = .anyValue → place.before.any isValueQuote = true)
    (h : Beside line place other) :
    Option.Rel (fun run run' => Beside line (place.skip run.length) (other.skip run'.length)
        ∧ (part.isValue = true → line.Moves run run'))
      (part.take? place) (part.take? other) := by
  have hhead := h.head?
  cases part with
  | boundary =>
    simp only [take?, h.before, hhead]
    split
    · exact .some ⟨h, fun hvalue => absurd hvalue Bool.false_ne_true⟩
    · exact .none
  | exact text =>
    exact rel_mono (given_beside hpart h) fun _ _ hboth =>
      ⟨hboth.1, fun hvalue => absurd hvalue Bool.false_ne_true⟩
  | value text =>
    exact rel_mono (given_beside hpart h) fun _ _ hboth => ⟨hboth.1, fun _ => hboth.2⟩
  | blanks =>
    exact .some ⟨(span_beside (by decide) h).1, fun hvalue => absurd hvalue Bool.false_ne_true⟩
  | quote =>
    simp only [take?, hhead]
    cases hq : other.rest.head?.filter isValueQuote with
    | none => exact .none
    | some q =>
      obtain ⟨hfirst, hquote⟩ := Option.filter_eq_some_iff.mp hq
      have hone : '\n' ∉ [q] := by
        rintro hmem
        rw [← List.mem_singleton.mp hmem] at hquote
        exact absurd hquote (by decide)
      obtain ⟨more, hmore⟩ := List.head?_eq_some_iff.mp (hhead.trans hfirst)
      refine .some ⟨(isPrefixOf_beside hone h).2 ?_, fun hvalue => absurd hvalue Bool.false_ne_true⟩
      simp [hmore, List.isPrefixOf]
  | anyValue =>
    exact rel_mono (anyValue_beside (hquote rfl) h) fun _ _ hboth => ⟨hboth.1, fun _ => hboth.2⟩

theorem Pattern.matchParts_beside {parts : List Part} (hparts : ∀ part ∈ parts, part.IsInline)
    (hquotes : parts.IsChain Part.Follows)
    (hquote : parts.head? = some .anyValue → place.before.any isValueQuote = true)
    (h : Beside line place other) :
    Option.Rel (fun result result' =>
        Beside line (place.skip result.1.length) (other.skip result'.1.length)
        ∧ Option.Rel line.Moves result.2 result'.2)
      (matchParts parts place) (matchParts parts other) := by
  induction parts generalizing place other with
  | nil => exact .some ⟨h, .none⟩
  | cons part parts ih =>
    obtain ⟨hpart, hparts⟩ := List.forall_mem_cons.mp hparts
    obtain ⟨hnext, hrest⟩ : (parts.head? = some .anyValue → part = .quote)
        ∧ parts.IsChain Part.Follows := by
      cases parts with
      | nil => exact ⟨fun hvalue => absurd hvalue.symm (Option.some_ne_none _), .nil⟩
      | cons next parts =>
        obtain ⟨hfollows, hrest⟩ := List.isChain_cons_cons.mp hquotes
        exact ⟨fun hvalue => hfollows (Option.some.inj hvalue), hrest⟩
    have hhere := Part.take?_beside hpart (fun hvalue => hquote (by rw [hvalue]; rfl)) h
    rw [matchParts, matchParts]
    generalize htake : part.take? place = taken at hhere
    generalize part.take? other = taken' at hhere
    cases hhere with
    | none => exact .none
    | @some run run' hrun =>
      obtain ⟨hbehind, hmoves⟩ := hrun
      have hmark : parts.head? = some .anyValue →
          (place.skip run.length).before.any isValueQuote = true := by
        intro hvalue
        rw [hnext hvalue] at htake
        obtain ⟨q, more, hplace, hq, rfl⟩ := Part.take?_quote.mp htake
        simpa [Cursor.skip_eq, hplace] using hq
      simp only [Option.bind_eq_bind, Option.bind_some]
      refine rel_bind (ih hparts hrest hmark hbehind) ?_
      intro result result' hboth
      refine .some ⟨?_, ?_⟩
      · simpa [Cursor.skip_skip] using hboth.1
      · split
        · rename_i hpart
          exact .some (hmoves hpart)
        · exact hboth.2

end

/-! ### Searches

At the line feed itself there is one place more on one side.  The search finds nothing at either,
and goes on with the same text behind it.
-/

namespace Pattern

/-- Whether what a pattern spells out is free of line feeds, and a value stands only behind a quote. -/
structure IsQuoting (pattern : Pattern) : Prop where
  isInline : ∀ part ∈ pattern.parts, part.IsInline
  follows : (Part.boundary :: pattern.parts).IsChain Part.Follows

variable {pattern : Pattern} {line : Line} {place other : Cursor}

theorem match?_beside (hpattern : pattern.IsQuoting) (h : Beside line place other) :
    Option.Rel (Alike line) (pattern.match? place) (pattern.match? other) := by
  obtain ⟨hparts, hquotes⟩ := hpattern
  obtain ⟨hfirst, hrest⟩ : (pattern.parts.head? = some .anyValue → Part.boundary = .quote)
      ∧ pattern.parts.IsChain Part.Follows := by
    cases hsplit : pattern.parts with
    | nil => exact ⟨fun hvalue => absurd hvalue.symm (Option.some_ne_none _), .nil⟩
    | cons next parts =>
      rw [hsplit] at hquotes
      obtain ⟨hfollows, hrest⟩ := List.isChain_cons_cons.mp hquotes
      exact ⟨fun hvalue => hfollows (Option.some.inj hvalue), hrest⟩
  have hmark : pattern.parts.head? = some .anyValue → place.before.any isValueQuote = true := by
    intro hvalue
    cases hfirst hvalue
  exact rel_map (matchParts_beside hparts hrest hmark h) fun _ _ => id

theorem firstIn?_cons_beside (hpattern : pattern.IsQuoting) {c : Char} {a b : Text}
    {before : Option Char} {offset offset' : Nat}
    (h : Beside line ⟨offset, before, c :: a⟩ ⟨offset', before, c :: b⟩)
    (hmore : Option.Rel (Alike line) (pattern.firstIn? (offset + 1) (some c) a)
      (pattern.firstIn? (offset' + 1) (some c) b)) :
    Option.Rel (Alike line) (pattern.firstIn? offset before (c :: a))
      (pattern.firstIn? offset' before (c :: b)) := by
  have hhere := match?_beside hpattern h
  rw [firstIn?, firstIn?]
  generalize pattern.match? ⟨offset, before, c :: a⟩ = found at hhere
  generalize pattern.match? ⟨offset', before, c :: b⟩ = found' at hhere
  cases hhere with
  | none => exact hmore
  | some hfound => exact .some hfound

/-- The same text, at another offset. -/
theorem firstIn?_moved (hpattern : pattern.IsQuoting) (text : Text) (offset offset' : Nat)
    (before : Option Char) :
    Option.Rel (Alike line) (pattern.firstIn? offset before text)
      (pattern.firstIn? offset' before text) := by
  induction text generalizing offset offset' before with
  | nil => exact match?_beside hpattern (.same rfl rfl)
  | cons c text ih => exact firstIn?_cons_beside hpattern (.same rfl rfl) (ih _ _ _)

/-- A search finds occurrences that are alike, if none begins at a line feed. -/
theorem firstIn?_seam (hpattern : pattern.IsQuoting)
    (hbreak : ∀ place : Cursor, place.rest.head? = some '\n' → pattern.match? place = none)
    {front back : Text} {before : Option Char} (hmeets : line.Meets before front back)
    (offset offset' : Nat) :
    Option.Rel (Alike line) (pattern.firstIn? offset before (front ++ '\n' :: back))
      (pattern.firstIn? offset' before (front ++ '\n' :: '\n' :: back)) := by
  induction front generalizing offset offset' before with
  | nil =>
    have hnone : ∀ (offset : Nat) (before : Option Char) (rest : Text),
        pattern.firstIn? offset before ('\n' :: rest)
          = pattern.firstIn? (offset + 1) (some '\n') rest := by
      intro offset before rest
      rw [firstIn?, hbreak ⟨offset, before, '\n' :: rest⟩ rfl]
    rw [List.nil_append, List.nil_append, hnone, hnone, hnone]
    exact firstIn?_moved hpattern back _ _ _
  | cons c front ih =>
    have hnext : line.Meets before ([c] ++ front) back := hmeets
    exact firstIn?_cons_beside hpattern (.seam (c :: front) back rfl rfl rfl hmeets)
      (ih hnext.skip _ _)

theorem first?_beside (hpattern : pattern.IsQuoting)
    (hbreak : ∀ place : Cursor, place.rest.head? = some '\n' → pattern.match? place = none)
    (h : Beside line place other) :
    Option.Rel (Alike line) (pattern.first? place) (pattern.first? other) := by
  rw [first?, first?, ← h.before]
  cases h with
  | same hbefore hrest =>
    rw [hrest]
    exact firstIn?_moved hpattern _ _ _ _
  | seam front back hbefore hrest hother hmeets =>
    rw [hrest, hother]
    exact firstIn?_seam hpattern hbreak hmeets _ _

end Pattern

/-! ### Keys -/

/-- A search for a key with a plain name. -/
theorem Pattern.first?_key_beside {name : Text} (hname : '\n' ∉ name) {line : Line}
    {place other : Cursor} (h : Beside line place other) :
    Option.Rel (Alike line) ((key name).first? place) ((key name).first? other) := by
  refine first?_beside ⟨?_, ?_⟩ ?_ h
  · have hcolon : '\n' ∉ name ++ [':'] := by simp [hname]
    simp [key, Part.IsInline, hname]
  · simp [key, Part.Follows]
  · intro place hhead
    rw [Option.eq_none_iff_forall_ne_some]
    intro found hfound
    obtain ⟨-, gap, q, body, q', more, hrest, -⟩ := match?_key.mp hfound
    rw [hrest] at hhead
    cases name with
    | nil => simp at hhead
    | cons c name =>
      simp only [List.cons_append, List.head?_cons, Option.some.injEq] at hhead
      simp [hhead] at hname

theorem Pattern.firstValue?_beside {name : Text} (hname : '\n' ∉ name) {line : Line} {a b : Text}
    (h : Beside line (.ofText a) (.ofText b)) :
    Option.Rel line.Moves ((key name).firstValue? a) ((key name).firstValue? b) :=
  rel_bind (first?_key_beside hname h) fun _ _ halike => halike.2

theorem nameAndType?_beside {line : Line} {a b : Text} (h : Beside line (.ofText a) (.ofText b)) :
    Option.Rel (fun result result' => line.Moves result.1 result'.1 ∧ line.Moves result.2 result'.2)
      (nameAndType? a) (nameAndType? b) := by
  have hname : '\n' ∉ "name".toList := by decide
  have htype : '\n' ∉ "type".toList := by decide
  refine rel_bind (Pattern.first?_key_beside hname h) ?_
  intro name name' hfirst
  refine rel_bind (rel_or (Pattern.first?_key_beside htype hfirst.1)
    (Pattern.first?_key_beside htype h)) ?_
  intro type type' hsecond
  refine rel_bind hfirst.2 ?_
  intro value value' hvalue
  exact rel_bind hsecond.2 fun _ _ hother => .some ⟨hvalue, hother⟩

end GroqSnippets
