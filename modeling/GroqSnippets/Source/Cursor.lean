/-
Places in a text.

A cursor is a place between two characters of a text: how many characters lie before it, which one
lies directly before it, and all that follows.  Carrying the rest of the text makes a step to the
next place cheap, and carrying the character before is what lets a word boundary be judged without
looking back.

A cursor past the last character stands at the end: skipping more characters than are left goes
no further.
-/
import GroqSnippets.Text.Basic

namespace GroqSnippets

/-- A place in a text. -/
structure Cursor where
  offset : Nat
  before : Option Char
  rest : Text
deriving DecidableEq, Repr

namespace Cursor

def ofText (text : Text) : Cursor :=
  ⟨0, none, text⟩

/-- The place `count` characters further on, or the end of the text. -/
def skip : (count : Nat) → Cursor → Cursor
  | 0, place => place
  | _ + 1, ⟨offset, before, []⟩ => ⟨offset, before, []⟩
  | count + 1, ⟨offset, _, c :: rest⟩ => skip count ⟨offset + 1, some c, rest⟩

/-- The place before the character with the given offset, or the end of the text. -/
def ofOffset (text : Text) (offset : Nat) : Cursor :=
  (ofText text).skip offset

/-- The text from one place up to a later one. -/
def upTo (place stop : Cursor) : Text :=
  place.rest.take (stop.offset - place.offset)

/-- The first place at or after this one with `c` behind it, or the end of the text. -/
def seek (c : Char) (place : Cursor) : Cursor :=
  place.skip (place.rest.takeWhile (· != c)).length

/-! ### What is left after a skip -/

theorem rest_skip (count : Nat) (place : Cursor) : (place.skip count).rest = place.rest.drop count := by
  fun_induction skip count place <;> simp_all

theorem length_rest_skip_le (count : Nat) (place : Cursor) :
    (place.skip count).rest.length ≤ place.rest.length := by
  simp [rest_skip]

theorem length_rest_skip_lt {count : Nat} {place : Cursor} (hcount : 0 < count) (hrest : place.rest ≠ []) :
    (place.skip count).rest.length < place.rest.length := by
  have := List.length_pos_iff.mpr hrest
  simp only [rest_skip, List.length_drop]
  omega

end Cursor

end GroqSnippets
