/-
Blanks.

Twenty-nine characters count as blank: the ASCII separators, the next-line mark, and the spaces of
Unicode.  The zero-width space, the Mongolian vowel separator and the byte order mark do not.
Blanks are what `trim` removes, what a pattern may skip after a colon, and what does not count as
the last code character before a slash.
-/
import GroqSnippets.Text.Basic
import GroqSnippets.Text.Range

namespace GroqSnippets

/-- The blank characters. -/
def blankRanges : List CodeRange :=
  [(0x9, 0xD), (0x1C, 0x20), (0x85, 0x85), (0xA0, 0xA0), (0x1680, 0x1680), (0x2000, 0x200A),
   (0x2028, 0x2029), (0x202F, 0x202F), (0x205F, 0x205F), (0x3000, 0x3000)]

def isBlank (c : Char) : Bool :=
  inRanges blankRanges c.toNat

namespace Text

/-- The text without the blanks at both ends. -/
def trim (text : Text) : Text :=
  text.stripWhile isBlank

def trimStart (text : Text) : Text :=
  text.dropWhile isBlank

def isBlank (text : Text) : Bool :=
  text.all GroqSnippets.isBlank

end Text

end GroqSnippets
