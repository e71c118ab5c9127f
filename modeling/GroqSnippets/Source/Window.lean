/-
Windows of a text.

The reader never builds a syntax tree.  It cuts windows out of the text and looks into them again:
the contents of a list behind a key, the blocks that start with a call, the objects of a list, and
the part of a block that belongs to the block alone.

A block reaches from its match through the bracket that closes the match's last character, and the
search goes on behind it, so blocks do not overlap.  Each search starts a new scan, which is why
the place behind a block is a fresh start.
-/
import GroqSnippets.Source.Bracket
import GroqSnippets.Source.Pattern

namespace GroqSnippets

/-- The text from a place up to another one, or to the end of the text. -/
def Cursor.window (place : Cursor) : (stop : Option Cursor) → Text
  | some stop => place.upTo stop
  | none => place.rest

namespace Pattern

/-- The contents of the bracket that ends the first occurrence in code. -/
def section? (pattern : Pattern) (text : Text) : Option Text :=
  (pattern.firstInCode? (Cursor.ofText text)).map fun found =>
    (found.bracket.skip 1).window found.bracket.closing?

/-- The blocks at or after a place: each starts with an occurrence in code and ends with the bracket
that closes its last character. -/
def blocksFrom (pattern : Pattern) (place : Cursor) : List Text :=
  match _ : pattern.firstInCode? place with
  | none => []
  | some found =>
    match _ : found.bracket.closing? with
    | none => [found.place.rest]
    | some close => found.place.upTo (close.skip 1) :: blocksFrom pattern (close.skip 1)
termination_by place.rest.length
decreasing_by
  rename_i hfound hclose
  have hsearch := rest_of_firstInCode? hfound
  have hclosing := Cursor.rest_of_closing? hclose
  have hbracket : found.bracket.rest.length ≤ found.place.rest.length := Cursor.length_rest_skip_le _ _
  have hnext := Cursor.length_rest_skip_lt Nat.one_pos hclosing.1
  omega

def blocks (pattern : Pattern) (text : Text) : List Text :=
  pattern.blocksFrom (Cursor.ofText text)

end Pattern

/-! ### The objects of a list

An object counts when only parentheses lie between it and the list, so the argument of a call is
found and an object inside another list or object is not.  `resume` is the offset at which the
scan goes on after an object.
-/

def objectsAmong (depth resume : Nat) : List Token → List Text
  | [] => []
  | token :: tokens =>
    if token.place.offset < resume then objectsAmong depth resume tokens
    else
      match token.lexeme with
      | .code '{' =>
        if depth = 0 then
          match closingAmong 0 (token :: tokens) with
          | none => [token.place.rest]
          | some close =>
            token.place.upTo (close.skip 1) :: objectsAmong depth (close.offset + 1) tokens
        else objectsAmong (depth + 1) resume tokens
      | .code '[' => objectsAmong (depth + 1) resume tokens
      | .code '}' | .code ']' => objectsAmong (depth - 1) resume tokens
      | _ => objectsAmong depth resume tokens

/-- The objects that sit directly in the body of a list, in order. -/
def objects (text : Text) : List Text :=
  objectsAmong 0 0 (Cursor.ofText text).tokens

/-! ### What stands directly in a block

The keys of a block stand directly inside its first brace.  What stands inside further brackets,
and the brackets themselves, belong to something else.
-/

/-- The text of the tokens at depth one, up to the bracket that closes the first one. -/
def directTextAmong (depth : Nat) : List Token → Text
  | [] => []
  | token :: tokens =>
    match token.lexeme with
    | .code c =>
      if isOpener c then directTextAmong (depth + 1) tokens
      else if isCloser c then
        if depth = 1 then [] else directTextAmong (depth - 1) tokens
      else if depth = 1 then c :: directTextAmong depth tokens
      else directTextAmong depth tokens
    | lexeme => if depth = 1 then lexeme.text ++ directTextAmong depth tokens else directTextAmong depth tokens

/-- The text directly inside the first brace of a block, without nested brackets and comments.  A
block without a brace is returned whole. -/
def directText (block : Text) : Text :=
  if block.contains '{' then directTextAmong 0 ((Cursor.ofText block).seek '{').tokens else block

end GroqSnippets
