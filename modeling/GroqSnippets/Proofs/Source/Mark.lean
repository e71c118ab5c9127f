/-
What the reader looks for in code.

A call and its opening object, a key and its opening list, a key and the value that is asked for:
each is a fixed text, blanks, and one of a few texts behind them.  Seen so they are marks, and a
pattern seeks a mark when its occurrences are those of the mark.  A key begins where a word does.

A mark runs over a line feed only if the line feed is one of its blanks.  The reader sees that only
where the mark begins in code, and for a key only at the start of a word.  So the place of a line
feed between two rows either splits a mark that the first row ends in, or every mark that is found
before it ends before it.
-/
import GroqSnippets.Proofs.Source.Layer
import GroqSnippets.Proofs.Source.Shape

namespace GroqSnippets

/-! ### Marks -/

/-- What the reader looks for in code: a text, blanks, and one of the texts that may follow them. -/
structure Mark where
  opening : Text
  closings : List Text
  isKey : Bool
deriving DecidableEq, Repr

namespace Mark

def objectCall (function : Text) : Mark :=
  ⟨function ++ ['('], [['{']], false⟩

def keyList (key : Text) : Mark :=
  ⟨key ++ [':'], [['[']], true⟩

def keyValue (key value : Text) : Mark :=
  ⟨key ++ [':'], ['\'', '"'].flatMap fun q => ['\'', '"'].map fun q' => q :: (value ++ [q']), true⟩

/-- Whether a mark may begin behind a character. -/
def Admits (mark : Mark) (before : Option Char) : Prop :=
  mark.isKey = true → isWordBoundary before mark.opening.head? = true

/-- Whether a text is the opening of a mark and blanks, and another one goes on with blanks and what
completes the mark. -/
def RunsOver (mark : Mark) (run rest : Text) : Prop :=
  ∃ closing ∈ mark.closings, ∃ gap gap' more, run = mark.opening ++ gap
    ∧ rest = gap' ++ (closing ++ more) ∧ (∀ c ∈ gap, isBlank c = true)
    ∧ ∀ c ∈ gap', isBlank c = true

instance (mark : Mark) (before : Option Char) : Decidable (mark.Admits before) :=
  inferInstanceAs (Decidable (_ → _))

instance (mark : Mark) (run rest : Text) : Decidable (mark.RunsOver run rest) :=
  decidable_of_iff (mark.opening.isPrefixOf run && (run.drop mark.opening.length).all isBlank
      && mark.closings.any fun closing => (List.range (rest.length + 1)).any fun n =>
        (rest.take n).all isBlank && closing.isPrefixOf (rest.drop n)) <| by
    simp only [Bool.and_eq_true, List.all_eq_true, List.any_eq_true, List.isPrefixOf_iff_prefix,
      and_assoc]
    constructor
    · rintro ⟨⟨gap, rfl⟩, hgap, closing, hclosing, n, -, hgap', more, hmore⟩
      rw [List.drop_left] at hgap
      exact ⟨closing, hclosing, gap, rest.take n, more, rfl,
        by rw [hmore, List.take_append_drop], hgap, hgap'⟩
    · rintro ⟨closing, hclosing, gap, gap', more, rfl, rfl, hgap, hgap'⟩
      refine ⟨List.prefix_append _ _, by rwa [List.drop_left], closing, hclosing, gap'.length, ?_,
        by rwa [List.take_left], by rw [List.drop_left]; exact List.prefix_append _ _⟩
      rw [List.mem_range, List.length_append]
      omega

/-- Whether a text begins with an occurrence of a mark. -/
def Heads (mark : Mark) (shape text : Text) : Prop :=
  ∃ gap closing more, closing ∈ mark.closings ∧ (∀ c ∈ gap, isBlank c = true)
    ∧ shape = mark.opening ++ (gap ++ closing) ∧ text = shape ++ more

end Mark

def codeMarks : List Mark :=
  [.objectCall "defineField".toList, .keyList "of".toList, .keyList "fields".toList,
    .keyValue "type".toList "object".toList]

/-- Each opening is plain text, and holds no line feed and no brace. -/
theorem opening_facts : ∀ mark ∈ codeMarks, mark.opening ≠ []
    ∧ mark.opening.all isPlain = true ∧ '\n' ∉ mark.opening ∧ '{' ∉ mark.opening := by
  decide

/-- No closing holds a line feed or begins with a slash. -/
theorem closing_facts : ∀ mark ∈ codeMarks, ∀ closing ∈ mark.closings,
    '\n' ∉ closing ∧ closing.head?.any (· != '/') = true := by
  decide

/-- A mark may begin where a text begins, and behind a bracket. -/
theorem admits_of_isOpener : ∀ mark ∈ codeMarks, ∀ c, isOpener c = true → mark.Admits (some c) := by
  have hword : ∀ mark ∈ codeMarks, mark.isKey = true → mark.opening.head?.any isWordChar = true := by
    decide +kernel
  intro mark hmark c hc hkey
  have hbracket : isWordChar c = false := by
    simp only [isOpener, Bool.or_eq_true, beq_iff_eq] at hc
    rcases hc with (rfl | rfl) | rfl <;> decide +kernel
  simp [isWordBoundary, hword mark hmark hkey, hbracket]

section

variable {mark : Mark} {run rest : Text}

/-- No mark runs into a comment. -/
theorem not_runsOver_slash (hmark : mark ∈ codeMarks) : ¬ mark.RunsOver run ('/' :: rest) := by
  rintro ⟨closing, hclosing, gap, gap', more, -, hrest, -, hgap'⟩
  obtain ⟨-, hslash⟩ := closing_facts mark hmark closing hclosing
  cases gap' with
  | nil =>
    cases closing with
    | nil => cases hslash
    | cons c closing =>
      obtain ⟨rfl, -⟩ := List.cons.inj hrest
      cases hslash
  | cons c gap' =>
    obtain ⟨rfl, -⟩ := List.cons.inj hrest
    have hblank := hgap' '/' List.mem_cons_self
    revert hblank
    decide

/-- What runs over a place is plain, and no brace is in it. -/
theorem Mark.RunsOver.run_facts (hmark : mark ∈ codeMarks) (h : mark.RunsOver run rest) :
    (∀ c ∈ run, isPlain c = true) ∧ '{' ∉ run := by
  obtain ⟨closing, -, gap, gap', more, rfl, -, hgap, -⟩ := h
  obtain ⟨-, hplain, -, hbrace⟩ := opening_facts mark hmark
  refine ⟨List.forall_mem_append.mpr ⟨List.all_eq_true.mp hplain, ?_⟩, ?_⟩
  · exact fun c hc => isPlain_of_isBlank (hgap c hc)
  rw [List.mem_append, not_or]
  refine ⟨hbrace, fun hmem => ?_⟩
  have hblank := hgap '{' hmem
  revert hblank
  decide

end

namespace Mark.Heads

variable {mark : Mark} {shape a b : Text}

theorem append (h : mark.Heads shape a) (b : Text) : mark.Heads shape (a ++ b) := by
  obtain ⟨gap, closing, more, hclosing, hgap, rfl, rfl⟩ := h
  exact ⟨gap, closing, more ++ b, hclosing, hgap, rfl, by simp⟩

/-- A mark at the head of a text ends before a line feed, or runs over it. -/
theorem of_append (hmark : mark ∈ codeMarks) (h : mark.Heads shape (a ++ '\n' :: b)) :
    mark.Heads shape a ∨ mark.RunsOver a b := by
  obtain ⟨-, -, hopening, -⟩ := opening_facts mark hmark
  obtain ⟨gap, closing, more, hclosing, hgap, rfl, htext⟩ := h
  obtain ⟨hbreak, -⟩ := closing_facts mark hmark closing hclosing
  rcases List.append_eq_append_iff.mp htext with ⟨s, hshape, hb⟩ | ⟨s, rfl, -⟩
  · cases s with
    | nil =>
      rw [List.append_nil] at hshape
      exact .inl ⟨gap, closing, [], hclosing, hgap, rfl, by rw [hshape, List.append_nil]⟩
    | cons d s =>
      obtain ⟨rfl, rfl⟩ := List.cons.inj hb
      -- The line feed is in the shape, and can only be in its blanks.
      obtain ⟨front, rfl, hrest⟩ := exists_of_append_eq_left hopening hshape
      obtain ⟨gap', rfl, rfl⟩ := exists_of_append_eq_right hbreak hrest
      have hblank := List.forall_mem_append.mp hgap
      exact .inr ⟨closing, hclosing, front, gap', more, rfl, by simp, hblank.1,
        (List.forall_mem_cons.mp hblank.2).2⟩
  · exact .inl ⟨gap, closing, s, hclosing, hgap, rfl, rfl⟩

end Mark.Heads

/-! ### Marks that are split

A line between the blanks of a mark keeps it from being found, and no other place in a mark could
have one.  Only a mark that would be found counts: one that begins in code, where a word may begin,
and goes on behind the line feed.
-/

/-- Whether a mark that begins in the code of a row, at a place that admits it, runs over the end of
the row.  Before the row stands a character. -/
def RowSplitsMark (last : Option Char) (front : List Lexeme) (rest : Text) : Prop :=
  ∃ mark ∈ codeMarks, ∃ row run, front = row ++ run.map .code ∧ mark.RunsOver run rest
    ∧ mark.Admits ((rowText row).getLast?.or last)

namespace RowSplitsMark

variable {last : Option Char} {front : List Lexeme} {rest : Text}

/-- A longer row, and more behind it, split what a shorter one does. -/
theorem extend {a : List Lexeme} (h : RowSplitsMark ((rowText a).getLast?.or last) front rest)
    (more : Text) : RowSplitsMark last (a ++ front) (rest ++ more) := by
  obtain ⟨mark, hmark, row, run, rfl, ⟨closing, hclosing, gap, gap', behind, hrun, rfl, hgap, hgap'⟩,
    hadmits⟩ := h
  refine ⟨mark, hmark, a ++ row, run, by simp,
    ⟨closing, hclosing, gap, gap', behind ++ more, hrun, by simp, hgap, hgap'⟩, ?_⟩
  rwa [rowText_append, List.getLast?_append, Option.or_assoc]

/-- At the start of a text the same marks are split as behind a bracket. -/
theorem behind_opener (h : RowSplitsMark none front rest) {c : Char} (hc : isOpener c = true) :
    RowSplitsMark (some c) front rest := by
  obtain ⟨mark, hmark, row, run, hfront, hruns, hadmits⟩ := h
  refine ⟨mark, hmark, row, run, hfront, hruns, ?_⟩
  cases hlast : (rowText row).getLast? with
  | none => exact admits_of_isOpener mark hmark c hc
  | some d => simpa [hlast] using hadmits

/-- A mark does not begin before a brace and end behind it, so it does not matter what stands before
the brace. -/
theorem of_brace {a : List Lexeme} (h : RowSplitsMark last (a ++ .code '{' :: front) rest)
    (last' : Option Char) : RowSplitsMark last' (a ++ .code '{' :: front) rest := by
  obtain ⟨mark, hmark, row, run, hfront, hruns, hadmits⟩ := h
  obtain ⟨-, hbrace⟩ := hruns.run_facts hmark
  have hnone : Lexeme.code '{' ∉ run.map .code := by simpa using hbrace
  obtain ⟨row', rfl, -⟩ := exists_of_append_eq_right hnone hfront.symm
  refine ⟨mark, hmark, _, run, hfront, hruns, ?_⟩
  rw [rowText_append, List.getLast?_append] at hadmits ⊢
  simpa [Lexeme.text, List.getLast?_cons] using hadmits

end RowSplitsMark

/-- Whether a mark that a scan sees begin in code, at a place that admits it, has the line feed
between two texts among its blanks. -/
def SplitsMark (before after : Text) (start : Nat) : Prop :=
  ∃ p c, (p, .code c) ∈ (before ++ '\n' :: after).seen start ∧ ∃ mark ∈ codeMarks,
    mark.RunsOver (before.drop p) after ∧ mark.Admits (before.take p).getLast?

instance (before after : Text) (start : Nat) : Decidable (SplitsMark before after start) :=
  decidable_of_iff (((before ++ '\n' :: after).seen start).any fun item =>
      item.2.text.any (item.2 = .code ·) && codeMarks.any fun mark =>
        decide (mark.RunsOver (before.drop item.1) after)
          && decide (mark.Admits (before.take item.1).getLast?)) <| by
    simp only [Bool.and_eq_true, List.any_eq_true, decide_eq_true_eq]
    constructor
    · rintro ⟨⟨p, _⟩, hmem, ⟨c, -, rfl⟩, hmark⟩
      exact ⟨p, c, hmem, hmark⟩
    · rintro ⟨p, c, hmem, hmark⟩
      exact ⟨(p, .code c), hmem, ⟨c, List.mem_singleton.mpr rfl, rfl⟩, hmark⟩

/-! ### Patterns that seek marks

A pattern takes all the blanks behind its opening.  So it can be matched in one way only, and
matching it is the same as having the mark at the head.
-/

/-- Whether the occurrences of a pattern are those of a mark. -/
def Pattern.Seeks (pattern : Pattern) (mark : Mark) : Prop :=
  ∃ value : Option Text, ∀ place found, pattern.match? place = some found
    ↔ mark.Admits place.before ∧ mark.Heads found.text place.rest ∧ found.place = place
      ∧ found.value = value

namespace Pattern

theorem seeks_objectCall (function : Text) :
    (objectCall function).Seeks (.objectCall function) := by
  refine ⟨none, fun place found => ?_⟩
  rw [match?_objectCall]
  constructor
  · rintro ⟨gap, more, hrest, hgap, rfl⟩
    exact ⟨nofun, ⟨gap, ['{'], more, List.mem_singleton.mpr rfl, hgap, by simp [Mark.objectCall],
      by simp [hrest]⟩, rfl, rfl⟩
  · rintro ⟨-, ⟨gap, closing, more, hclosing, hgap, hshape, hrest⟩, rfl, hvalue⟩
    obtain rfl := List.mem_singleton.mp hclosing
    refine ⟨gap, more, by simp [hrest, hshape, Mark.objectCall], hgap, ?_⟩
    cases found
    simp_all [Mark.objectCall]

theorem seeks_keyList {key : Text} {first : Char} {rest : Text} (hkey : key = first :: rest) :
    (keyList key).Seeks (.keyList key) := by
  subst hkey
  refine ⟨none, fun place found => ?_⟩
  rw [match?_keyList]
  constructor
  · rintro ⟨hboundary, gap, more, hrest, hgap, rfl⟩
    rw [hrest] at hboundary
    exact ⟨fun _ => hboundary, ⟨gap, ['['], more, List.mem_singleton.mpr rfl, hgap,
      by simp [Mark.keyList], by simp [hrest]⟩, rfl, rfl⟩
  · rintro ⟨hadmits, ⟨gap, closing, more, hclosing, hgap, hshape, hrest⟩, rfl, hvalue⟩
    obtain rfl := List.mem_singleton.mp hclosing
    have htext : found.place.rest = first :: rest ++ ':' :: (gap ++ '[' :: more) := by
      simp [hrest, hshape, Mark.keyList]
    refine ⟨by rw [htext]; exact hadmits rfl, gap, more, htext, hgap, ?_⟩
    cases found
    simp_all [Mark.keyList]

theorem isValueQuote_iff {q : Char} : isValueQuote q = true ↔ q ∈ ['\'', '"'] := by
  simp [isValueQuote]

theorem seeks_keyValue {key value : Text} {first : Char} {rest : Text}
    (hkey : key = first :: rest) : (keyValue key value).Seeks (.keyValue key value) := by
  subst hkey
  refine ⟨some value, fun place found => ?_⟩
  constructor
  · intro h
    obtain ⟨hboundary, gap, q, q', more, hrest, hgap, hq, hq', rfl⟩ := exists_of_match?_keyValue h
    rw [hrest] at hboundary
    refine ⟨fun _ => hboundary, ⟨gap, q :: (value ++ [q']), more, ?_, hgap,
      by simp [Mark.keyValue], by simp [hrest]⟩, rfl, rfl⟩
    exact List.mem_flatMap.mpr ⟨q, isValueQuote_iff.mp hq, List.mem_map.mpr
      ⟨q', isValueQuote_iff.mp hq', rfl⟩⟩
  · rintro ⟨hadmits, ⟨gap, closing, more, hclosing, hgap, hshape, hrest⟩, rfl, hvalue⟩
    obtain ⟨q, hq, hclosing⟩ := List.mem_flatMap.mp hclosing
    obtain ⟨q', hq', rfl⟩ := List.mem_map.mp hclosing
    have htext : found.place.rest
        = first :: rest ++ ':' :: (gap ++ q :: (value ++ q' :: more)) := by
      simp [hrest, hshape, Mark.keyValue]
    rw [match?_keyValue (by rw [htext]; exact hadmits rfl) htext hgap (isValueQuote_iff.mpr hq)
      (isValueQuote_iff.mpr hq')]
    cases found
    simp_all [Mark.keyValue]

end Pattern

end GroqSnippets
