/-
Printed rows, set out.

A layout puts blanks into a row, and what comes out has the shape of the row: a key is still a key,
a bracket still holds what it held.  Each piece of a printed row is taken apart here, whatever
blanks it was given, and what the reader needs to know of a piece is said once: that it reads as
itself, that its brackets are balanced, and which keys it lets a search pass.
-/
import GroqSnippets.Proofs.Schema.Print
import GroqSnippets.Proofs.Schema.Reading

namespace GroqSnippets

/-- Whether a row is another one with blanks set in where they may stand. -/
def Laid (row out : List Lexeme) : Prop :=
  ∃ (layout : Layout) (n : Nat), out = layout.lay n row

abbrev Blanks (gap : Text) : Prop :=
  ∀ c ∈ gap, isBlank c = true

/-- Whether no blanks may stand around any character of a word. -/
abbrev Firm (text : Text) : Prop :=
  (text.all fun c => c != '}' && !isSeam (.code c)) = true

/-- A key and its value with blanks between them. -/
def entryRow (key gap value : Text) : List Lexeme :=
  word (key ++ ':' :: gap) ++ [literal value]

theorem rowText_entryRow (key gap value : Text) :
    rowText (entryRow key gap value) = valueText key gap value := by
  rw [entryRow, rowText_append, rowText_map_code]
  simp [valueText, literal, Lexeme.text]

def listRow (key gap : Text) (inner : List Lexeme) : List Lexeme :=
  word (key ++ ':' :: gap) ++ .code '[' :: (inner ++ [.code ']'])

def ruleWord : Text := "validation".toList

def ruleKey : Text := ruleWord ++ [':']

def ruleArgument : Text := "Rule".toList

def ruleCall : Text := " => Rule.required".toList

/-- A rule with blanks behind its colon and its brackets. -/
def ruleRow (a b c : Text) : List Lexeme :=
  word (ruleKey ++ a) ++ ((.code '(' :: (word (b ++ ruleArgument) ++ [.code ')']))
    ++ (word ruleCall ++ (.code '(' :: (word c ++ [.code ')']))))

/-! ### Taking rows apart -/

namespace Laid

variable {out : List Lexeme}

theorem nil (h : Laid [] out) : out = [] := by
  obtain ⟨layout, n, rfl⟩ := h
  rfl

theorem append {a b : List Lexeme} (h : Laid (a ++ b) out) :
    ∃ x y, out = x ++ y ∧ Laid a x ∧ Laid b y := by
  obtain ⟨layout, n, rfl⟩ := h
  exact ⟨_, _, layout.lay_append n a b, ⟨layout, n, rfl⟩, ⟨layout, _, rfl⟩⟩

theorem cons {lexeme : Lexeme} {row : List Lexeme} (h : Laid (lexeme :: row) out) :
    ∃ x y, out = x ++ y ∧ Laid [lexeme] x ∧ Laid row y :=
  append (a := [lexeme]) h

/-- A lexeme around which no blanks may stand. -/
theorem firm {lexeme : Lexeme} (h : Laid [lexeme] out) (hbrace : lexeme ≠ .code '}')
    (hseam : isSeam lexeme = false) :
    out = [lexeme] := by
  obtain ⟨layout, n, rfl⟩ := h
  simp [Layout.lay, hbrace, hseam]

/-- A character behind which blanks may stand. -/
theorem seam {c : Char} (h : Laid [.code c] out) (hseam : isSeam (.code c) = true) :
    ∃ gap, Blanks gap ∧ out = word (c :: gap) := by
  obtain ⟨layout, n, rfl⟩ := h
  have hbrace : c ≠ '}' := by
    rintro rfl
    revert hseam
    decide
  exact ⟨layout.behind n, layout.isBlank_behind n, by simp [Layout.lay, hbrace, hseam]⟩

theorem brace (h : Laid [.code '}'] out) : ∃ gap, Blanks gap ∧ out = word gap ++ [.code '}'] := by
  obtain ⟨layout, n, rfl⟩ := h
  exact ⟨layout.before n, layout.isBlank_before n, by simp [Layout.lay, isSeam, isOpener]⟩

theorem firm_word {text : Text} (h : Laid (word text) out)
    (hfirm : Firm text) : out = word text := by
  induction text generalizing out with
  | nil => exact h.nil
  | cons c text ih =>
    obtain ⟨x, y, rfl, hx, hy⟩ := h.cons
    simp only [Firm, List.all_cons, Bool.and_eq_true, bne_iff_ne, Bool.not_eq_true'] at hfirm ih
    obtain ⟨⟨hbrace, hseam⟩, hrest⟩ := hfirm
    rw [hx.firm (by simpa using hbrace) hseam, ih hy hrest]
    rfl

theorem append_word {a b : Text} (h : Laid (word (a ++ b)) out) :
    ∃ x y, out = x ++ y ∧ Laid (word a) x ∧ Laid (word b) y := by
  rw [word, List.map_append] at h
  exact h.append

/-- A word that ends in a character behind which blanks may stand. -/
theorem seam_word {text : Text} {c : Char} (h : Laid (word (text ++ [c])) out) (hfirm : Firm text)
    (hseam : isSeam (.code c) = true) : ∃ gap, Blanks gap ∧ out = word (text ++ c :: gap) := by
  obtain ⟨x, y, rfl, hx, hy⟩ := h.append_word
  obtain ⟨gap, hgap, rfl⟩ := hy.seam hseam
  exact ⟨gap, hgap, by rw [hx.firm_word hfirm, word, word, word, List.map_append]⟩

theorem entry {key value : Text} (h : Laid (entry key value) out) (hkey : Firm key) :
    ∃ gap, Blanks gap ∧ out = entryRow key gap value := by
  obtain ⟨x, y, rfl, hx, hy⟩ := h.append
  obtain ⟨gap, hgap, rfl⟩ := hx.seam_word hkey (by decide)
  exact ⟨gap, hgap, by rw [hy.firm (by simp [literal]) rfl, entryRow]⟩

theorem commaLed_cons {row : List Lexeme} {rows : List (List Lexeme)}
    (h : Laid (commaLed (row :: rows)) out) :
    ∃ gap x y, Blanks gap ∧ out = word (',' :: gap) ++ (x ++ y) ∧ Laid row x
      ∧ Laid (commaLed rows) y := by
  obtain ⟨led, y, rfl, hled, hy⟩ := h.append
  obtain ⟨comma, x, rfl, hcomma, hx⟩ := hled.cons
  obtain ⟨gap, hgap, rfl⟩ := hcomma.seam (by decide)
  exact ⟨gap, x, y, hgap, by rw [List.append_assoc], hx, hy⟩

theorem commaLed_append {a b : List (List Lexeme)} (h : Laid (commaLed (a ++ b)) out) :
    ∃ x y, out = x ++ y ∧ Laid (commaLed a) x ∧ Laid (commaLed b) y := by
  rw [commaLed, List.flatMap_append] at h
  exact h.append

theorem braced {inner : List Lexeme} (h : Laid (braced inner) out) :
    ∃ front back x, Blanks front ∧ Blanks back
      ∧ out = GroqSnippets.braced (word front ++ x ++ word back) ∧ Laid inner x := by
  obtain ⟨opener, y, rfl, hopener, hy⟩ := h.cons
  obtain ⟨x, closer, rfl, hx, hcloser⟩ := hy.append
  obtain ⟨front, hfront, rfl⟩ := hopener.seam (by decide)
  obtain ⟨back, hback, rfl⟩ := hcloser.brace
  exact ⟨front, back, x, hfront, hback, by simp [GroqSnippets.braced], hx⟩

theorem keyedList {key : Text} {items : List (List Lexeme)} (h : Laid (keyedList key items) out)
    (hkey : Firm key) :
    ∃ gap front x, Blanks gap ∧ Blanks front
      ∧ out = listRow key gap (word front ++ x) ∧ Laid (separated items) x := by
  obtain ⟨y, closer, rfl, hy, hcloser⟩ := h.append
  obtain ⟨start, x, rfl, hstart, hx⟩ := hy.append
  rw [show key ++ [':', '['] = (key ++ [':']) ++ ['['] by simp] at hstart
  obtain ⟨colon, bracket, rfl, hcolon, hbracket⟩ := hstart.append_word
  obtain ⟨gap, hgap, rfl⟩ := hcolon.seam_word hkey (by decide)
  obtain ⟨front, hfront, rfl⟩ := hbracket.seam (by decide)
  rw [hcloser.firm (by decide) (by decide)]
  exact ⟨gap, front, x, hgap, hfront, by simp [listRow], hx⟩

/-- A rule, in whose brackets blanks may stand. -/
theorem rule (h : Laid (word "validation:(Rule) => Rule.required()".toList) out) :
    ∃ a b c, Blanks a ∧ Blanks b ∧ Blanks c ∧ out = ruleRow a b c := by
  have hsplit : "validation:(Rule) => Rule.required()".toList
      = (ruleWord ++ [':'])
      ++ (['('] ++ (ruleArgument ++ ([')'] ++ ((ruleCall ++ ['(']) ++ [')'])))) := by decide
  rw [hsplit] at h
  obtain ⟨key, x, rfl, hkey, hx⟩ := h.append_word
  obtain ⟨opener, y, rfl, hopener, hy⟩ := hx.append_word
  obtain ⟨argument, z, rfl, hargument, hz⟩ := hy.append_word
  obtain ⟨between, u, rfl, hbetween, hu⟩ := hz.append_word
  obtain ⟨call, closer, rfl, hcall, hcloser⟩ := hu.append_word
  obtain ⟨a, ha, rfl⟩ := hkey.seam_word (by decide) (by decide)
  obtain ⟨b, hb, rfl⟩ := hopener.seam (by decide)
  obtain ⟨c, hc, rfl⟩ := hcall.seam_word (by decide) (by decide)
  rw [hargument.firm_word (by decide), hbetween.firm (by decide) (by decide),
    hcloser.firm (by decide) (by decide)]
  refine ⟨a, b, c, ha, hb, hc, ?_⟩
  simp only [ruleRow, ruleKey, word, List.map_append, List.map_cons,
    List.append_assoc, List.cons_append, List.nil_append]

end Laid

/-! ### Reading as itself, and balance -/

/-- Whether a row reads as itself wherever it stands. -/
def SteadyRow (row : List Lexeme) : Prop :=
  ∀ lexeme ∈ row, lexeme.Steady

theorem all_isPlain_of_blanks {gap : Text} (h : Blanks gap) : gap.all isPlain = true := by
  rw [List.all_eq_true]
  intro c hc
  exact isPlain_of_isBlank (h c hc)

namespace SteadyRow

theorem append {a b : List Lexeme} (ha : SteadyRow a) (hb : SteadyRow b) : SteadyRow (a ++ b) :=
  List.forall_mem_append.mpr ⟨ha, hb⟩

theorem cons {c : Char} {row : List Lexeme} (hc : isPlain c = true) (hrow : SteadyRow row) :
    SteadyRow (.code c :: row) :=
  List.forall_mem_cons.mpr ⟨.code hc, hrow⟩

theorem word {text : Text} (h : text.all isPlain = true) : SteadyRow (word text) := by
  intro lexeme hmem
  obtain ⟨c, hc, rfl⟩ := List.mem_map.mp hmem
  exact .code (List.all_eq_true.mp h c hc)

theorem blanks {gap : Text} (h : Blanks gap) : SteadyRow (GroqSnippets.word gap) :=
  word (all_isPlain_of_blanks h)

/-- A word with blanks behind it. -/
theorem seam {text gap : Text} {c : Char} (htext : (text ++ [c]).all isPlain = true)
    (hgap : Blanks gap) :
    SteadyRow (GroqSnippets.word (text ++ c :: gap)) := by
  rw [List.append_cons]
  refine word ?_
  rw [List.all_append, htext, all_isPlain_of_blanks hgap]
  rfl

theorem literal {value : Text} (h : value.IsPrintable) : SteadyRow [literal value] := by
  refine List.forall_mem_singleton.mpr (.quoted (by decide) ?_)
  intro c hc
  constructor
  · intro hquote
    subst hquote
    exact h.no_single hc
  · intro hslash
    subst hslash
    exact h.no_backslash hc

end SteadyRow

namespace Balanced

theorem word {text : Text} (h : ∀ c ∈ text, isOpener c = false ∧ isCloser c = false) :
    Balanced (word text) text := by
  induction text with
  | nil => exact .nil
  | cons c text ih =>
    have hc : ∀ d, Lexeme.code c = .code d → isOpener d = false ∧ isCloser d = false := by
      intro d hd
      cases hd
      exact h c (by simp)
    have htext : ∀ d ∈ text, isOpener d = false ∧ isCloser d = false := by
      intro d hd
      exact h d (by simp [hd])
    exact .cons hc (ih htext)

theorem not_bracket_of_isBlank {c : Char} (h : isBlank c = true) :
    isOpener c = false ∧ isCloser c = false := by
  by_contra hc
  simp only [isOpener, isCloser, not_and_or, Bool.not_eq_false, Bool.or_eq_true, beq_iff_eq] at hc
  rcases hc with ((rfl | rfl) | rfl) | ((rfl | rfl) | rfl) <;> revert h <;> decide

theorem not_bracket_of_blanks {gap : Text} (h : Blanks gap) :
    ∀ c ∈ gap, isOpener c = false ∧ isCloser c = false := by
  intro c hc
  exact not_bracket_of_isBlank (h c hc)

theorem not_bracket_of_all {text : Text}
    (h : (text.all fun c => !isOpener c && !isCloser c) = true) :
    ∀ c ∈ text, isOpener c = false ∧ isCloser c = false := by
  simpa using h

theorem blanks {gap : Text} (h : Blanks gap) : Balanced (GroqSnippets.word gap) gap :=
  word (not_bracket_of_blanks h)

theorem literal (value : Text) : Balanced [literal value] ('\'' :: (value ++ ['\'']) ++ []) := by
  refine .cons ?_ .nil
  intro c hc
  cases hc

theorem hidden {inner : List Lexeme} {direct : Text}
    (h : Balanced inner direct) {opener closer : Char} (hopener : isOpener opener = true)
    (hcloser : isCloser closer = true) :
    Balanced (.code opener :: (inner ++ [.code closer])) [] :=
  .bracket hopener hcloser h .nil

end Balanced

/-! ### What a search passes

No mark begins with a blank, so a layout cannot make one.  A value cannot make one either, since the
mark of a key has a colon and a value that is printed has none.
-/

/-- A text that does not begin with a blank. -/
structure IsInked (needle : Text) : Prop where
  head : ∃ first rest, needle = first :: rest ∧ isBlank first = false

namespace IsInked

variable {needle : Text}

theorem avoids_blanks (h : IsInked needle) {gap : Text} (hgap : Blanks gap) :
    Avoids needle gap := by
  obtain ⟨first, rest, rfl, hfirst⟩ := h.head
  refine Avoids.of_forall_ne ?_
  intro c hc hsame
  rw [← hsame, hgap c hc] at hfirst
  cases hfirst

theorem avoids_comma (h : IsInked needle) (hcomma : clears needle [','] = true)
    {gap : Text} (hgap : Blanks gap) :
    Avoids needle (',' :: gap) :=
  Avoids.append (a := [',']) (Avoids.of_clears hcomma) (h.avoids_blanks hgap)

/-- A word with blanks behind it is avoided if the word is. -/
theorem avoids_seam (h : IsInked needle) {text gap : Text} {c : Char}
    (htext : clears needle (text ++ [c]) = true) (hgap : Blanks gap) :
    Avoids needle (text ++ c :: gap) := by
  rw [List.append_cons]
  exact (Avoids.of_clears htext).append (h.avoids_blanks hgap)

/-- In code, a key with any value is passed if the key is. -/
theorem passes_entry (h : IsInked needle) {key gap : Text}
    (hkey : clears needle (key ++ [':']) = true) (hgap : Blanks gap) (value : Text) :
    Passes needle (entryRow key gap value) :=
  Passes.append (h.avoids_seam hkey hgap) (Passes.quoted _)

end IsInked

/-- A text that keys begin with, which has a colon but no quote. -/
structure IsMark (needle : Text) : Prop extends IsInked needle where
  colon : ':' ∈ needle
  no_quote : '\'' ∉ needle

namespace IsMark

variable {needle : Text}

theorem avoids_literal (h : IsMark needle) {value : Text} (hvalue : value.IsPrintable) :
    Avoids needle ('\'' :: (value ++ ['\''])) := by
  have hlacked : ':' ∉ ('\'' :: value) ++ ['\''] := by simpa using hvalue.no_colon
  exact Avoids.of_lacking h.no_quote h.colon hlacked

/-- A key with a value is avoided if the key is. -/
theorem avoids_valueText (h : IsMark needle) {key gap value : Text}
    (hkey : clears needle (key ++ [':']) = true) (hgap : Blanks gap) (hvalue : value.IsPrintable) :
    Avoids needle (valueText key gap value) := by
  have hsplit : valueText key gap value = (key ++ ':' :: gap) ++ '\'' :: (value ++ ['\'']) := by
    simp [valueText]
  rw [hsplit]
  exact (h.avoids_seam hkey hgap).append (h.avoids_literal hvalue)

end IsMark

end GroqSnippets
