/-
Lines.

A line ends at a line feed, a carriage return (alone or before a line feed, which is then one
break), a vertical tab, a form feed, one of the three information separators 1C to 1E, the
next-line mark, or one of the two Unicode separators.  The breaks are not part of the lines, and a
text that ends in a break has no empty line after it.
-/
import GroqSnippets.Text.Basic
import GroqSnippets.Text.Range

namespace GroqSnippets

/-- The characters that end a line. -/
def lineBreakRanges : List CodeRange :=
  [(0xA, 0xD), (0x1C, 0x1E), (0x85, 0x85), (0x2028, 0x2029)]

/-- Whether a character ends a line. -/
def isLineBreak (c : Char) : Bool :=
  inRanges lineBreakRanges c.toNat

namespace Text

/-- The lines of a text, where `line` holds the characters read since the last break, latest first. -/
def linesFrom (line : Text) : Text → List Text
  | [] => if line.isEmpty then [] else [line.reverse]
  | '\r' :: '\n' :: rest => line.reverse :: linesFrom [] rest
  | c :: rest => if isLineBreak c then line.reverse :: linesFrom [] rest else linesFrom (c :: line) rest

/-- The lines of a text, without their breaks. -/
def lines (text : Text) : List Text :=
  linesFrom [] text

/-- The text with carriage returns, alone or before a line feed, turned into line feeds. -/
def normalizeNewlines : Text → Text
  | [] => []
  | '\r' :: '\n' :: rest => '\n' :: normalizeNewlines rest
  | '\r' :: rest => '\n' :: normalizeNewlines rest
  | c :: rest => c :: normalizeNewlines rest

example : lines "a\nb\r\nc\rd\x0ce\u2028".toList = ["a", "b", "c", "d", "e"].map String.toList ∧ lines [] = []
    ∧ lines "\n\n".toList = [[], []] := by
  decide +kernel

end Text

end GroqSnippets
