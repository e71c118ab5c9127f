/-
Patterns.

What the reader looks for in a text are short fixed shapes: a key with a quoted value, a key with
an opening list, a call with an object as its first argument.  A pattern is a row of parts, and
each part takes a run of characters that is settled by the text alone, so matching never has to
try again with a shorter run.

A key begins at a word boundary, and a match attempted in the middle of a text sees the character
before it.  The two quotes around a value need not be of the same kind.
-/
import GroqSnippets.Source.Token
import GroqSnippets.Text.Word

namespace GroqSnippets

def isValueQuote (c : Char) : Bool :=
  c == '\'' || c == '"'

inductive Part where
  | boundary
  | exact (text : Text)
  | blanks
  /-- One of the quotes around a value. -/
  | quote
  /-- The value: all that follows up to the next quote, at least one character. -/
  | anyValue
  | value (text : Text)
deriving DecidableEq, Repr

namespace Part

/-- What a part takes at a place, if it can stand there. -/
def take? (part : Part) (place : Cursor) : Option Text :=
  match part with
  | boundary => if isWordBoundary place.before place.rest.head? then some [] else none
  | exact text | value text => if text.isPrefixOf place.rest then some text else none
  | blanks => some (place.rest.takeWhile isBlank)
  | quote => (place.rest.head?.filter isValueQuote).map ([·])
  | anyValue =>
    match place.rest.takeWhile (!isValueQuote ·) with
    | [] => none
    | text => some text

/-- Whether what the part takes is the value of the match. -/
def isValue : Part → Bool
  | anyValue | value _ => true
  | _ => false

end Part

structure Pattern where
  parts : List Part
deriving DecidableEq, Repr

structure Match where
  place : Cursor
  text : Text
  value : Option Text
deriving DecidableEq, Repr

namespace Match

/-- The place behind the occurrence. -/
def stop (found : Match) : Cursor :=
  found.place.skip found.text.length

/-- The place before the last character of the occurrence: its bracket, if it ends in one. -/
def bracket (found : Match) : Cursor :=
  found.place.skip (found.text.length - 1)

end Match

namespace Pattern

/-- The key, a colon and a quoted value of any kind. -/
def key (name : Text) : Pattern :=
  ⟨[.boundary, .exact (name ++ [':']), .blanks, .quote, .anyValue, .quote]⟩

def keyValue (name value : Text) : Pattern :=
  ⟨[.boundary, .exact (name ++ [':']), .blanks, .quote, .value value, .quote]⟩

/-- The key, a colon and an opening list. -/
def keyList (name : Text) : Pattern :=
  ⟨[.boundary, .exact (name ++ [':']), .blanks, .exact ['[']]⟩

/-- A call whose first argument is an object. -/
def objectCall (function : Text) : Pattern :=
  ⟨[.exact (function ++ ['(']), .blanks, .exact ['{']]⟩

def exactly (text : Text) : Pattern :=
  ⟨[.exact text]⟩

/-- What a row of parts takes at a place, with the value in it. -/
def matchParts : List Part → Cursor → Option (Text × Option Text)
  | [], _ => some ([], none)
  | part :: parts, place => do
    let taken ← part.take? place
    let (text, value) ← matchParts parts (place.skip taken.length)
    return (taken ++ text, if part.isValue then some taken else value)

def match? (pattern : Pattern) (place : Cursor) : Option Match :=
  (matchParts pattern.parts place).map fun (text, value) => ⟨place, text, value⟩

/-- The leftmost occurrence in the rest of a text, whatever it stands in. -/
def firstIn? (pattern : Pattern) (offset : Nat) (before : Option Char) : Text → Option Match
  | [] => pattern.match? ⟨offset, before, []⟩
  | c :: rest =>
    match pattern.match? ⟨offset, before, c :: rest⟩ with
    | some found => some found
    | none => firstIn? pattern (offset + 1) (some c) rest

/-- The leftmost occurrence at or after a place, whatever it stands in. -/
def first? (pattern : Pattern) (place : Cursor) : Option Match :=
  pattern.firstIn? place.offset place.before place.rest

/-- The occurrence that starts at a token, if the token is a code character. -/
def matchToken? (pattern : Pattern) (token : Token) : Option Match :=
  match token.lexeme with
  | .code _ => pattern.match? token.place
  | _ => none

/-- The leftmost occurrence that begins in code, when lexemes are read on from a place.  No more of
the text is read than that takes. -/
def firstInCodeFrom (pattern : Pattern) (last : Option Char) (place : Cursor) : Option Match :=
  match _ : place.rest with
  | [] => none
  | c :: rest =>
    let lexeme := Lexeme.first last c rest
    match pattern.matchToken? ⟨place, lexeme⟩ with
    | some found => some found
    | none => firstInCodeFrom pattern (lexeme.lastAfter last) (place.skip lexeme.text.length)
termination_by place.rest.length
decreasing_by
  exact Cursor.length_rest_skip_lt (List.length_pos_iff.mpr (Lexeme.text_first_ne_nil _ _ _)) (by simp_all)

/-- The leftmost occurrence at or after a place that begins in code. -/
def firstInCode? (pattern : Pattern) (place : Cursor) : Option Match :=
  pattern.firstInCodeFrom none place

/-! ### Searches in code

A search in code stops reading at the first occurrence.  For proofs it is the first occurrence among
all lexemes, with comments left out, since nothing matches at a comment.
-/

theorem matchToken?_of_isComment {pattern : Pattern} {token : Token} (h : token.lexeme.isComment = true) :
    pattern.matchToken? token = none := by
  unfold matchToken?
  split <;> simp_all [Lexeme.isComment]

/-- Reading on finds what is found among all lexemes, and comments make no difference. -/
theorem firstInCodeFrom_eq (pattern : Pattern) (last : Option Char) (place : Cursor) :
    pattern.firstInCodeFrom last place
      = ((lexemesFrom last place).filter fun token => !token.lexeme.isComment).findSome? pattern.matchToken? := by
  fun_induction firstInCodeFrom pattern last place with
  | case1 last place hrest => simp [lexemesFrom_of_nil hrest]
  | case2 last place c rest hrest lexeme found hfound =>
    cases hcomment : lexeme.isComment with
    | true =>
      have hcode : pattern.matchToken? ⟨place, lexeme⟩ = none := matchToken?_of_isComment hcomment
      simp_all
    | false => simp_all +zetaDelta [lexemesFrom_of_cons hrest]
  | case3 last place c rest hrest lexeme hnone ih =>
    cases hcomment : lexeme.isComment <;> simp_all +zetaDelta [lexemesFrom_of_cons hrest]

theorem firstInCode?_eq (pattern : Pattern) (place : Cursor) :
    pattern.firstInCode? place = place.tokens.findSome? pattern.matchToken? :=
  pattern.firstInCodeFrom_eq none place

theorem place_of_match? {pattern : Pattern} {place : Cursor} {found : Match}
    (h : pattern.match? place = some found) : found.place = place := by
  simp only [match?, Option.map_eq_some_iff] at h
  obtain ⟨_, _, rfl⟩ := h
  rfl

theorem place_of_matchToken? {pattern : Pattern} {token : Token} {found : Match}
    (h : pattern.matchToken? token = some found) : found.place = token.place := by
  unfold matchToken? at h
  split at h
  · exact place_of_match? h
  · cases h

theorem rest_of_firstInCode? {pattern : Pattern} {place : Cursor} {found : Match}
    (h : pattern.firstInCode? place = some found) :
    found.place.rest ≠ [] ∧ found.place.rest.length ≤ place.rest.length := by
  rw [firstInCode?_eq] at h
  obtain ⟨token, hmem, htoken⟩ := List.exists_of_findSome?_eq_some h
  rw [place_of_matchToken? htoken]
  exact Cursor.rest_of_mem_tokens hmem

end Pattern

end GroqSnippets
