/-
Passing over a row.

A search stops at the first place where its pattern matches, so to tell where it stops one has to
know that it does not stop before.  All patterns begin with a fixed text, and a row is passed over
when that text begins at none of its code characters.  Asked for whatever follows the row, this
holds of a row in two parts when it holds of both, and for a fixed word it can be computed.

A search that looks into literals as well is the same question about the row of all characters.
-/
import GroqSnippets.Proofs.Source.Balance
import GroqSnippets.Proofs.Source.Block

namespace GroqSnippets

/-- Whether a text begins at none of the code characters of a row, whatever follows the row. -/
def Passes (needle : Text) (row : List Lexeme) : Prop :=
  ∀ before c after more, row = before ++ .code c :: after →
    ¬ needle <+: rowText (.code c :: after) ++ more

/-- Whether a text begins nowhere in another one, whatever follows that. -/
def Avoids (needle text : Text) : Prop :=
  Passes needle (text.map .code)

namespace Passes

variable {needle : Text}

theorem nil : Passes needle [] := by
  intro before c after more h
  simp at h

theorem append {a b : List Lexeme} (ha : Passes needle a) (hb : Passes needle b) :
    Passes needle (a ++ b) := by
  intro before c after more h
  rcases List.append_eq_append_iff.mp h with ⟨extra, rfl, hb'⟩ | ⟨extra, rfl, ha'⟩
  · exact hb extra c after more hb'
  · cases extra with
    | nil => exact hb [] c after more (by simpa using ha'.symm)
    | cons first extra =>
      obtain ⟨rfl, rfl⟩ := List.cons.inj ha'
      have hpassed := ha before c extra (rowText b ++ more) rfl
      rwa [← List.append_assoc, ← rowText_append] at hpassed

theorem quoted (text : Text) : Passes needle [.quoted text] := by
  intro before c after more h
  cases before with
  | nil => cases h
  | cons first before => simp at h

end Passes

/-- Whether a word and a text disagree wherever the text is laid on the word. -/
def clears (needle : Text) : (word : Text) → Bool
  | [] => true
  | c :: word =>
    !needle.isPrefixOf (c :: word) && !(c :: word).isPrefixOf needle && clears needle word

namespace Avoids

variable {needle : Text}

theorem nil : Avoids needle [] := Passes.nil

theorem append {a b : Text} (ha : Avoids needle a) (hb : Avoids needle b) :
    Avoids needle (a ++ b) := by
  rw [Avoids, List.map_append]
  exact Passes.append ha hb

theorem of_clears {word : Text} (h : clears needle word = true) : Avoids needle word := by
  induction word with
  | nil => exact nil
  | cons c word ih =>
    rw [clears, Bool.and_eq_true, Bool.and_eq_true, Bool.not_eq_true', Bool.not_eq_true'] at h
    obtain ⟨⟨hshort, hlong⟩, hrest⟩ := h
    intro before d after more hsplit
    cases before with
    | cons first before => exact ih hrest before d after more (List.cons.inj hsplit).2
    | nil =>
      obtain ⟨hd, rfl⟩ := List.cons.inj hsplit
      obtain rfl := Lexeme.code.inj hd
      intro hbegins
      rw [← List.map_cons, rowText_map_code] at hbegins
      -- Two beginnings of one text: the shorter begins the longer.
      rcases List.prefix_or_prefix_of_prefix hbegins (List.prefix_append _ _) with h | h
      · rw [List.isPrefixOf_iff_prefix.mpr h] at hshort
        cases hshort
      · rw [List.isPrefixOf_iff_prefix.mpr h] at hlong
        cases hlong

theorem of_forall_ne {first : Char} {text : Text} (h : ∀ c ∈ text, c ≠ first) :
    Avoids (first :: needle) text := by
  refine of_clears ?_
  induction text with
  | nil => rfl
  | cons c text ih =>
    obtain ⟨hc, htext⟩ := List.forall_mem_cons.mp h
    rw [clears, ih htext]
    simp [List.isPrefixOf, hc, hc.symm]

/-- A text begins nowhere inside another one that lacks one of its characters, and that ends with a
character which it lacks itself. -/
theorem of_lacking {text : Text} {last lacked : Char} (hlast : last ∉ needle)
    (hlacked : lacked ∈ needle) (h : lacked ∉ text ++ [last]) : Avoids needle (text ++ [last]) := by
  have hshort : ∀ piece : Text, lacked ∉ piece → needle.isPrefixOf piece = false := by
    intro piece hpiece
    rw [← Bool.not_eq_true, List.isPrefixOf_iff_prefix]
    intro hbegins
    exact hpiece (hbegins.subset hlacked)
  have hlong : ∀ piece : Text, last ∈ piece → piece.isPrefixOf needle = false := by
    intro piece hpiece
    rw [← Bool.not_eq_true, List.isPrefixOf_iff_prefix]
    intro hbegins
    exact hlast (hbegins.subset hpiece)
  refine of_clears ?_
  induction text with
  | nil =>
    have hfirst := hshort [last] h
    have hwhole := hlong [last] (List.mem_singleton.mpr rfl)
    simp [clears, hfirst, hwhole]
  | cons c text ih =>
    have hrest : lacked ∉ text ++ [last] := by
      intro hmem
      exact h (List.mem_cons_of_mem _ hmem)
    have hfirst := hshort (c :: (text ++ [last])) h
    have hwhole := hlong (c :: (text ++ [last])) (by simp)
    rw [List.cons_append, clears, ih hrest]
    simp [hfirst, hwhole]

theorem not_infix {text : Text} (h : Avoids needle text) (hneedle : needle ≠ []) :
    ¬ needle <:+: text := by
  rintro ⟨front, back, rfl⟩
  obtain ⟨c, rest, rfl⟩ := List.exists_cons_of_ne_nil hneedle
  refine h (front.map .code) c ((rest ++ back).map .code) [] (by simp) ?_
  rw [← List.map_cons, rowText_map_code, List.append_nil, ← List.cons_append]
  exact List.prefix_append _ _

end Avoids

/-! ### Searches

A search does not look at what it passes over as long as nothing there begins like the pattern.  So
a text is avoided by a pattern if it is avoided by the characters that the pattern begins with.
-/

namespace Pattern

/-- Whether every occurrence of a pattern begins with a text. -/
def Begins (pattern : Pattern) (needle : Text) : Prop :=
  ∀ place found, pattern.match? place = some found → needle <+: place.rest

theorem begins_key (name : Text) : (key name).Begins (name ++ [':']) := by
  intro place found h
  obtain ⟨-, gap, q, body, q', more, hrest, -⟩ := match?_key.mp h
  exact ⟨_, by rw [hrest, List.append_assoc, List.singleton_append]⟩

theorem begins_keyList (name : Text) : (keyList name).Begins (name ++ [':']) := by
  intro place found h
  obtain ⟨-, gap, more, hrest, -⟩ := match?_keyList.mp h
  exact ⟨_, by rw [hrest, List.append_assoc, List.singleton_append]⟩

theorem begins_keyValue (name value : Text) : (keyValue name value).Begins (name ++ [':']) := by
  intro place found h
  simp only [match?_eq_some_iff, keyValue, matchParts_boundary, matchParts_exact] at h
  obtain ⟨-, -, ⟨more, hrest⟩, -⟩ := h
  exact ⟨more, hrest.symm⟩

theorem begins_objectCall (function : Text) : (objectCall function).Begins (function ++ ['(']) := by
  intro place found h
  obtain ⟨gap, more, hrest, -⟩ := match?_objectCall.mp h
  exact ⟨_, by rw [hrest, List.append_assoc, List.singleton_append]⟩

variable {pattern : Pattern} {needle : Text}

/-- No occurrence begins in a row that is passed over. -/
theorem matchToken?_of_passes (hbegins : pattern.Begins needle) {row : List Lexeme}
    (hrow : Passes needle row) {place : Cursor} {more : Text}
    (hplace : place.rest = rowText row ++ more) :
    ∀ token ∈ placed place row, pattern.matchToken? token = none := by
  intro token htoken
  obtain ⟨before, after, rfl, hat⟩ := mem_placed_iff.mp htoken
  unfold matchToken?
  split
  · rename_i c hc
    rw [Option.eq_none_iff_forall_ne_some]
    intro found hfound
    refine hrow before c after more (by rw [hc]) ?_
    have hthere := hbegins _ _ hfound
    rwa [hat, Cursor.rest_skip, hplace, rowText_append, List.append_assoc,
      List.drop_left, hc] at hthere
  · rfl

/-- A search in code passes over what it may, and ends at the match behind it. -/
theorem firstInCode?_of_passes (hbegins : pattern.Begins needle)
    {before after : List Lexeme} {c : Char} {place : Cursor} {found : Match}
    (hplace : lexemes none place.rest = before ++ .code c :: after) (hpasses : Passes needle before)
    (hfound : pattern.match? (place.skip (rowText before).length) = some found) :
    pattern.firstInCode? place = some found := by
  refine firstInCode?_eq_some_iff.mpr ⟨before, c, after, hplace, hfound, ?_⟩
  have hrest : place.rest = rowText before ++ rowText (.code c :: after) := by
    rw [← rowText_append, ← hplace, rowText_lexemes]
  exact matchToken?_of_passes hbegins hpasses hrest

theorem firstInCode?_eq_none (hbegins : pattern.Begins needle) {place : Cursor}
    (hpasses : Passes needle (lexemes none place.rest)) : pattern.firstInCode? place = none := by
  have hrest : place.rest = rowText (lexemes none place.rest) ++ [] := by
    rw [rowText_lexemes, List.append_nil]
  rw [firstInCode?_eq_placed, List.findSome?_eq_none_iff]
  exact matchToken?_of_passes hbegins hpasses hrest

theorem match?_eq_none_of_avoids (hbegins : pattern.Begins needle) {text more : Text}
    (htext : Avoids needle text) {place : Cursor} (hplace : place.rest = text ++ more) {m : Nat}
    (hm : m < text.length) :
    pattern.match? (place.skip m) = none := by
  have hrest : place.rest = rowText (text.map .code) ++ more := by rw [rowText_map_code, hplace]
  refine matchToken?_of_passes hbegins htext hrest
    ⟨place.skip m, .code text[m]⟩
    (mem_placed_iff.mpr ⟨(text.take m).map .code, (text.drop (m + 1)).map .code, ?_, ?_⟩)
  · dsimp only
    rw [← List.map_cons, ← List.map_append, ← List.drop_eq_getElem_cons hm, List.take_append_drop]
  · rw [rowText_map_code, List.length_take, Nat.min_eq_left (Nat.le_of_lt hm)]

/-- A search passes over what it may, and ends at the match behind it. -/
theorem first?_of_avoids (hbegins : pattern.Begins needle) {text more : Text}
    {place : Cursor} {found : Match} (hplace : place.rest = text ++ more)
    (htext : Avoids needle text) (hfound : pattern.match? (place.skip text.length) = some found) :
    pattern.first? place = some found := by
  refine first?_eq_some_iff.mpr ⟨text.length, ?_, hfound, ?_⟩
  · rw [hplace, List.length_append]
    omega
  · intro m hm
    exact match?_eq_none_of_avoids hbegins htext hplace hm

theorem first?_eq_none (hbegins : pattern.Begins needle) (hneedle : needle ≠ []) {place : Cursor}
    (htext : Avoids needle place.rest) : pattern.first? place = none := by
  rw [Option.eq_none_iff_forall_ne_some]
  intro found hfound
  obtain ⟨n, hn, hmatch, -⟩ := first?_eq_some_iff.mp hfound
  rcases Nat.lt_or_eq_of_le hn with hlt | rfl
  · have hrest : place.rest = place.rest ++ [] := (List.append_nil _).symm
    rw [match?_eq_none_of_avoids hbegins htext hrest hlt] at hmatch
    cases hmatch
  · have hnone := hbegins _ _ hmatch
    rw [Cursor.rest_skip, List.drop_length, List.prefix_nil] at hnone
    exact hneedle hnone

end Pattern

/-! ### Keys -/

theorem exists_range_of_inRanges {ranges : List CodeRange} {code : Nat}
    (h : inRanges ranges code = true) :
    ∃ range ∈ ranges, code ∈ List.range' range.1 (range.2 + 1 - range.1) := by
  induction ranges with
  | nil => cases h
  | cons range ranges ih =>
    simp only [inRanges, Bool.and_eq_true, Bool.or_eq_true, decide_eq_true_eq] at h
    rcases h with ⟨hlow, hhigh | hrest⟩
    · exact ⟨range, List.mem_cons_self, List.mem_range'_1.mpr (by omega)⟩
    · obtain ⟨range', hmem, hcode⟩ := ih hrest
      exact ⟨range', List.mem_cons_of_mem _ hmem, hcode⟩

/-- A blank belongs to no word, which is looked up for every blank there is. -/
theorem not_isWordChar_of_isBlank {c : Char} (h : isBlank c = true) : isWordChar c = false := by
  have hall : ∀ range ∈ blankRanges, ∀ code ∈ List.range' range.1 (range.2 + 1 - range.1),
      isWordChar (Char.ofNat code) = false := by decide +kernel
  obtain ⟨range, hrange, hcode⟩ := exists_range_of_inRanges h
  have := hall range hrange c.toNat hcode
  rwa [Char.ofNat_toNat] at this

def Breaks (text : Text) : Prop :=
  ∀ c ∈ text.getLast?, isWordChar c = false

theorem Breaks.nil : Breaks [] := by
  intro c h
  cases h

theorem Breaks.append_blanks {text gap : Text} (h : Breaks text)
    (hgap : ∀ c ∈ gap, isBlank c = true) :
    Breaks (text ++ gap) := by
  intro c hc
  rw [List.getLast?_append] at hc
  rcases Option.or_eq_some_iff.mp hc with hc | ⟨-, hc⟩
  · exact not_isWordChar_of_isBlank (hgap c (List.mem_of_getLast? hc))
  · exact h c hc

def valueText (key gap value : Text) : Text :=
  key ++ ':' :: (gap ++ '\'' :: (value ++ ['\'']))

namespace Pattern

section

variable {place : Cursor} {pre more key gap value : Text} {first : Char}

theorem isWordBoundary_skip (hplace : place.rest = pre ++ first :: more)
    (hfirst : isWordChar first = true) (hpre : pre ≠ [] ∨ place.before = none)
    (hbreaks : Breaks pre) :
    isWordBoundary (place.skip pre.length).before (place.skip pre.length).rest.head? = true := by
  have hbefore : (place.skip pre.length).before.any isWordChar = false := by
    rw [Cursor.skip_eq, hplace, List.take_left]
    cases hlast : pre.getLast? with
    | none =>
      have hnil := List.getLast?_eq_none_iff.mp hlast
      have hnone := hpre.resolve_left (not_not_intro hnil)
      simp [hnone]
    | some c => simpa using hbreaks c hlast
  rw [isWordBoundary, hbefore, Cursor.rest_skip, hplace, List.drop_left]
  simp [hfirst]

theorem exists_cons_of_head?_any {word : Text} {p : Char → Bool} (h : word.head?.any p = true) :
    ∃ first rest, word = first :: rest ∧ p first = true := by
  cases word with
  | nil => cases h
  | cons first rest => exact ⟨first, rest, rfl, h⟩

theorem first?_key_eq (hplace : place.rest = pre ++ (valueText key gap value ++ more))
    (hkey : key.head?.any isWordChar = true) (hpre : pre ≠ [] ∨ place.before = none)
    (hbreaks : Breaks pre) (havoids : Avoids (key ++ [':']) pre)
    (hgap : ∀ c ∈ gap, isBlank c = true) (hvalue : Text.IsValue value) :
    (Pattern.key key).first? place
      = some ⟨place.skip pre.length, valueText key gap value, some value⟩ := by
  obtain ⟨first, key, rfl, hfirst⟩ := exists_cons_of_head?_any hkey
  refine first?_of_avoids (begins_key _) hplace havoids
    (match?_key.mpr ⟨?_, gap, '\'', value, '\'', more, ?_⟩)
  · have hrest : place.rest
        = pre ++ first :: (key ++ ':' :: (gap ++ '\'' :: (value ++ ['\'']) ++ more)) := by
      simpa [valueText] using hplace
    exact isWordBoundary_skip hrest hfirst hpre hbreaks
  · rw [Cursor.rest_skip, hplace, List.drop_left]
    exact ⟨by simp [valueText], hgap, by decide, hvalue.nonempty,
      hvalue.not_isValueQuote, by decide, rfl⟩

end

/-! ### Windows of a row -/

section

variable {place : Cursor} {before inner more : List Lexeme} {gap hidden : Text} {first : Char}

/-- The place of a settling character in a row, and what a scan from there sees. -/
theorem lexemes_skip_of_isSettling {c : Char} {after : List Lexeme}
    (hplace : lexemes none place.rest = before ++ .code c :: after) (hc : isSettling c = true) :
    lexemes none (place.skip (rowText before).length).rest = .code c :: after := by
  have hstart : lexemes none (place.rest.drop 0) = before ++ .code c :: after := hplace
  have hdrop := lexemes_drop_of_isSettling hstart hc
  rwa [Nat.zero_add, ← Cursor.rest_skip] at hdrop

theorem rest_of_lexemes {row : List Lexeme} (h : lexemes none place.rest = row) :
    place.rest = rowText row := by
  rw [← h, rowText_lexemes]

/-- Where the bracket of a match is closed, and what is cut out there. -/
theorem exists_closing_of_match {run : Text} {opener closer : Char} {found : Match}
    (hopener : isOpener opener = true) (hcloser : isCloser closer = true)
    (hinner : Balanced inner hidden)
    (hplace : lexemes none place.rest
      = before ++ (run.map .code ++ .code opener :: (inner ++ .code closer :: more)))
    (hat : found.place = place.skip (rowText before).length)
    (htext : found.text = run ++ [opener]) :
    ∃ close, found.bracket.closing? = some close ∧ (found.bracket.skip 1).upTo close = rowText inner
      ∧ found.place.upTo (close.skip 1) = run ++ rowText (.code opener :: (inner ++ [.code closer]))
      ∧ (close.skip 1).rest = rowText more := by
  have hrest : place.rest
      = rowText before ++ (run ++ opener :: (rowText inner ++ closer :: rowText more)) := by
    rw [rest_of_lexemes hplace]
    simp [rowText_map_code, Lexeme.text]
  have hlength := congrArg List.length hrest
  simp only [List.length_append, List.length_cons] at hlength
  have hbracket : found.bracket = place.skip ((rowText before).length + run.length) := by
    rw [Match.bracket, hat, Cursor.skip_skip, htext, List.length_append,
      List.length_singleton, Nat.add_sub_cancel]
  have hopen : lexemes none found.bracket.rest
      = .code opener :: (inner ++ .code closer :: more) := by
    rw [← List.append_assoc] at hplace
    have hthere := lexemes_skip_of_isSettling hplace (isSettling_of_isOpener hopener)
    rwa [rowText_append, rowText_map_code, List.length_append, ← hbracket] at hthere
  have hclosing := hinner.closing? hopener hcloser hopen
  rw [length_rowText_code, hbracket, Cursor.skip_skip] at hclosing
  refine ⟨_, by rw [hbracket]; exact hclosing, ?_, ?_, ?_⟩
  · have hsplit : place.rest
        = (rowText before ++ run ++ [opener]) ++ (rowText inner ++ closer :: rowText more) := by
      rw [hrest]
      simp
    have hdrop : place.rest.drop ((rowText before).length + run.length + 1)
        = rowText inner ++ closer :: rowText more := by
      rw [hsplit, List.drop_left' (by simp [Nat.add_assoc])]
    rw [hbracket, Cursor.skip_skip, Cursor.upTo, Cursor.offset_skip, Cursor.offset_skip,
      Cursor.rest_skip, hdrop, List.take_left' (by omega)]
  · have hdrop : place.rest.drop (rowText before).length
        = (run ++ rowText (.code opener :: (inner ++ [.code closer]))) ++ rowText more := by
      rw [hrest, List.drop_left]
      simp [Lexeme.text]
    have hcut : (run ++ rowText (.code opener :: (inner ++ [.code closer]))).length
        = run.length + (1 + (rowText inner).length) + 1 := by
      simp [Lexeme.text]
      omega
    rw [hat, Cursor.skip_skip, Cursor.upTo, Cursor.offset_skip, Cursor.offset_skip,
      Cursor.rest_skip, hdrop, List.take_left' (by omega)]
  · have hsplit : place.rest
        = (rowText before ++ run ++ rowText (.code opener :: (inner ++ [.code closer])))
        ++ rowText more := by
      rw [hrest]
      simp [Lexeme.text]
    rw [Cursor.skip_skip, Cursor.rest_skip, hsplit, List.drop_left']
    simp [Lexeme.text]
    omega

/-- The section of a key whose list is balanced is what the list holds. -/
theorem section?_keyList_eq {text key : Text}
    (htext : lexemes none text
      = before ++ ((key ++ ':' :: gap).map .code ++ .code '[' :: (inner ++ .code ']' :: more)))
    (hpasses : Passes (key ++ [':']) before) (hbreaks : Breaks (rowText before))
    (hkey : key.head?.any isWordChar = true) (hgap : ∀ c ∈ gap, isBlank c = true)
    (hinner : Balanced inner hidden) :
    (keyList key).section? text = some (rowText inner) := by
  obtain ⟨first, key, rfl, hfirst⟩ := exists_cons_of_head?_any hkey
  have hwhole : lexemes none (Cursor.ofText text).rest = _ := htext
  have hrest : (Cursor.ofText text).rest
      = rowText before
        ++ (first :: (key ++ ':' :: (gap ++ '[' :: (rowText inner ++ ']' :: rowText more)))) := by
    rw [rest_of_lexemes hwhole]
    simp [rowText_map_code, Lexeme.text]
  let start := (Cursor.ofText text).skip (rowText before).length
  let found : Match := ⟨start, first :: key ++ ':' :: (gap ++ ['[']), none⟩
  have hstart : start.rest
      = first :: (key ++ ':' :: (gap ++ '[' :: (rowText inner ++ ']' :: rowText more))) := by
    rw [Cursor.rest_skip, hrest, List.drop_left]
  have hboundary : isWordBoundary start.before start.rest.head? = true :=
    isWordBoundary_skip hrest hfirst (Or.inr rfl) hbreaks
  have hmatch : (keyList (first :: key)).match? start = some found :=
    match?_keyList.mpr
      ⟨hboundary, gap, rowText inner ++ ']' :: rowText more, by rw [hstart]; simp, hgap, rfl⟩
  have hfound := firstInCode?_of_passes (begins_keyList _) hwhole hpasses hmatch
  have hspelled : found.text = (first :: key ++ ':' :: gap) ++ ['['] := by simp [found]
  obtain ⟨close, hclose, hsection, -, -⟩ :=
    exists_closing_of_match (by decide) (by decide) hinner hwhole rfl hspelled
  rw [section?, hfound, Option.map_some, hclose, Cursor.window, hsection]

theorem exists_firstInCode?_keyValue {text key value : Text}
    (htext : lexemes none text
      = before ++ ((key ++ ':' :: gap).map .code ++ .quoted ('\'' :: (value ++ ['\''])) :: more))
    (hpasses : Passes (key ++ [':']) before) (hbreaks : Breaks (rowText before))
    (hkey : key.head?.any isWordChar = true) (hgap : ∀ c ∈ gap, isBlank c = true) :
    ∃ found, (keyValue key value).firstInCode? (Cursor.ofText text) = some found := by
  obtain ⟨first, key, rfl, hfirst⟩ := exists_cons_of_head?_any hkey
  have hwhole : lexemes none (Cursor.ofText text).rest = _ := htext
  have hrest : (Cursor.ofText text).rest
      = rowText before
        ++ (first :: (key ++ ':' :: (gap ++ '\'' :: (value ++ '\'' :: rowText more)))) := by
    rw [rest_of_lexemes hwhole]
    simp [rowText_map_code, Lexeme.text]
  have hthere : ((Cursor.ofText text).skip (rowText before).length).rest
      = first :: key ++ ':' :: (gap ++ '\'' :: (value ++ '\'' :: rowText more)) := by
    rw [Cursor.rest_skip, hrest, List.drop_left, List.cons_append]
  have hboundary := isWordBoundary_skip hrest hfirst (Or.inr rfl) hbreaks
  exact ⟨_, firstInCode?_of_passes (begins_keyValue _ _) hwhole hpasses
    (match?_keyValue hboundary hthere hgap (by decide) (by decide))⟩

/-- The first block of a row whose object is balanced, and the blocks behind it. -/
theorem blocksFrom_eq {function : Text}
    (hplace : lexemes none place.rest
      = before ++ ((function ++ '(' :: gap).map .code ++ .code '{' :: (inner ++ .code '}' :: more)))
    (hfunction : function ≠ []) (hpasses : Passes (function ++ ['(']) before)
    (hgap : ∀ c ∈ gap, isBlank c = true) (hinner : Balanced inner hidden) :
    ∃ next, next.rest = rowText more
      ∧ (objectCall function).blocksFrom place
        = ((function ++ '(' :: gap) ++ rowText (braced inner))
          :: (objectCall function).blocksFrom next := by
  obtain ⟨first, function, rfl⟩ := List.exists_cons_of_ne_nil hfunction
  have hrest : place.rest
      = rowText before ++ (first :: (function
          ++ '(' :: (gap ++ '{' :: (rowText inner ++ '}' :: rowText more)))) := by
    rw [rest_of_lexemes hplace]
    simp [rowText_map_code, Lexeme.text]
  let start := place.skip (rowText before).length
  let found : Match := ⟨start, first :: function ++ '(' :: (gap ++ ['{']), none⟩
  have hstart : start.rest
      = first :: (function ++ '(' :: (gap ++ '{' :: (rowText inner ++ '}' :: rowText more))) := by
    rw [Cursor.rest_skip, hrest, List.drop_left]
  have hmatch : (objectCall (first :: function)).match? start = some found :=
    match?_objectCall.mpr
      ⟨gap, rowText inner ++ '}' :: rowText more, by rw [hstart]; simp, hgap, rfl⟩
  have hfound := firstInCode?_of_passes (begins_objectCall _) hplace hpasses hmatch
  have hspelled : found.text = (first :: function ++ '(' :: gap) ++ ['{'] := by simp [found]
  obtain ⟨close, hclose, -, hblock, hnext⟩ :=
    exists_closing_of_match (by decide) (by decide) hinner hplace rfl hspelled
  refine ⟨close.skip 1, hnext, ?_⟩
  rw [blocksFrom_of_closed hfound hclose, hblock, braced]

end

/-! ### Calls in a row -/

/-- A row of calls, each with an object, and rows before and behind them in which no call begins.
The texts are what the calls spell, up to the ends of their objects. -/
inductive Strung (function : Text) : List Text → List Lexeme → Prop where
  | nil {row : List Lexeme} (hrow : Passes (function ++ ['(']) row) : Strung function [] row
  | cons {blocks : List Text} {before inner more : List Lexeme} {gap direct : Text}
      (hbefore : Passes (function ++ ['(']) before) (hgap : ∀ c ∈ gap, isBlank c = true)
      (hinner : Balanced inner direct)
      (hmore : Strung function blocks more) :
      Strung function (((function ++ '(' :: gap) ++ rowText (braced inner)) :: blocks)
        (before ++ ((function ++ '(' :: gap).map .code ++ (braced inner ++ more)))

/-- The blocks of a row of calls are what the calls spell. -/
theorem blocksFrom_of_strung {function : Text} (hfunction : function ≠ [])
    {blocks : List Text} {row : List Lexeme} (h : Strung function blocks row)
    (hsteady : ∀ lexeme ∈ row, lexeme.Steady) {place : Cursor} (hplace : place.rest = rowText row) :
    (objectCall function).blocksFrom place = blocks := by
  induction h generalizing place with
  | nil hrow =>
    refine blocksFrom_of_none (firstInCode?_eq_none (begins_objectCall function) ?_)
    rwa [hplace, lexemes_of_steady hsteady]
  | @cons blocks before inner more gap direct hbefore hgap hinner _ ih =>
    have hread : lexemes none place.rest
        = before ++ ((function ++ '(' :: gap).map .code
            ++ .code '{' :: (inner ++ .code '}' :: more)) := by
      rw [hplace, lexemes_of_steady hsteady]
      simp [braced]
    obtain ⟨next, hnext, hblocks⟩ := blocksFrom_eq hread hfunction hbefore hgap hinner
    have hmore : ∀ lexeme ∈ more, lexeme.Steady := by
      intro lexeme hmem
      exact hsteady lexeme (by simp [hmem])
    rw [hblocks, ih hmore hnext]

end Pattern

end GroqSnippets
