/-
Brackets.

A bracket is closed by the first later closing bracket at which as many brackets have closed as
have opened.  The three kinds are not told apart, and brackets inside literals and comments do not
count.  A bracket that nothing closes reaches to the end of its text.

The depth is an integer because a scan may start on a closing bracket, and then has to climb back
before anything can bring it to zero from above.
-/
import GroqSnippets.Source.Token

namespace GroqSnippets

def isOpener (c : Char) : Bool :=
  c == '(' || c == '[' || c == '{'

def isCloser (c : Char) : Bool :=
  c == ')' || c == ']' || c == '}'

/-- Whether a lexeme is a bracket that brings the depth to zero. -/
def closesAt (depth : Int) : Lexeme → Bool
  | .code c => isCloser c && depth == 1
  | _ => false

def depthAfter (depth : Int) : Lexeme → Int
  | .code c => if isOpener c then depth + 1 else if isCloser c then depth - 1 else depth
  | _ => depth

/-- The place of the first closing bracket that brings the depth to zero. -/
def closingAmong (depth : Int) : List Token → Option Cursor
  | [] => none
  | token :: tokens =>
    if closesAt depth token.lexeme then some token.place
    else closingAmong (depthAfter depth token.lexeme) tokens

/-- The place of the first closing bracket that brings the depth to zero, when lexemes are read on
from a place.  No more of the text is read than that takes. -/
def closingFrom (depth : Int) (last : Option Char) (place : Cursor) : Option Cursor :=
  match _ : place.rest with
  | [] => none
  | c :: rest =>
    let lexeme := Lexeme.first last c rest
    if closesAt depth lexeme then some place
    else closingFrom (depthAfter depth lexeme) (lexeme.lastAfter last) (place.skip lexeme.text.length)
termination_by place.rest.length
decreasing_by
  exact Cursor.length_rest_skip_lt (List.length_pos_iff.mpr (Lexeme.text_first_ne_nil _ _ _)) (by simp_all)

/-- Reading on finds the bracket that is found among all lexemes, and comments make no difference. -/
theorem closingFrom_eq (depth : Int) (last : Option Char) (place : Cursor) :
    closingFrom depth last place
      = closingAmong depth ((lexemesFrom last place).filter fun token => !token.lexeme.isComment) := by
  fun_induction closingFrom depth last place with
  | case1 depth last place hrest => simp [lexemesFrom_of_nil hrest, closingAmong]
  | case2 depth last place c rest hrest lexeme hcloses =>
    rw [lexemesFrom_of_cons hrest]
    cases hlexeme : Lexeme.first last c rest <;>
      simp_all +zetaDelta [closesAt, closingAmong, Lexeme.isComment]
  | case3 depth last place c rest hrest lexeme hcloses ih =>
    rw [lexemesFrom_of_cons hrest, ih]
    cases hlexeme : Lexeme.first last c rest <;>
      simp_all +zetaDelta [closesAt, depthAfter, closingAmong, Lexeme.isComment]

namespace Cursor

/-- The place of the bracket that closes the one at this place. -/
def closing? (place : Cursor) : Option Cursor :=
  closingFrom 0 none place

theorem closing?_eq (place : Cursor) : place.closing? = closingAmong 0 place.tokens :=
  closingFrom_eq 0 none place

end Cursor

/-- The offset of the bracket that closes the one at an offset, or the length of the text. -/
def closingOffset (text : Text) (offset : Nat) : Nat :=
  match (Cursor.ofOffset text offset).closing? with
  | some close => close.offset
  | none => text.length

theorem exists_mem_of_closingAmong {depth : Int} {tokens : List Token} {close : Cursor}
    (h : closingAmong depth tokens = some close) : ∃ token ∈ tokens, token.place = close := by
  fun_induction closingAmong depth tokens <;> grind

theorem Cursor.rest_of_closing? {place close : Cursor} (h : place.closing? = some close) :
    close.rest ≠ [] ∧ close.rest.length ≤ place.rest.length := by
  rw [closing?_eq] at h
  obtain ⟨token, hmem, rfl⟩ := exists_mem_of_closingAmong h
  exact Cursor.rest_of_mem_tokens hmem

end GroqSnippets
