/-
Texts.

A text is the list of its characters.  Everything the library reports about a text (where a token
starts, where a bracket closes, how far a match reaches) counts characters, and everything it cuts
out of a text is a run of characters, so the list is the form in which those facts can be said
directly.
-/
namespace GroqSnippets

/-- A text: the list of its characters. -/
abbrev Text := List Char

namespace Text

/-- Whether a text occurs somewhere in another one. -/
def occursIn (needle : Text) : Text → Bool
  | [] => needle.isEmpty
  | c :: rest => needle.isPrefixOf (c :: rest) || occursIn needle rest

/-- The text with every occurrence of `old` replaced, from left to right and without overlaps.
`skip` counts the characters of an occurrence that are still to be passed over. -/
def replaceFrom (old new : Text) : (skip : Nat) → Text → Text
  | _, [] => []
  | skip + 1, _ :: rest => replaceFrom old new skip rest
  | 0, c :: rest =>
    if old.isPrefixOf (c :: rest) then new ++ replaceFrom old new (old.length - 1) rest
    else c :: replaceFrom old new 0 rest

/-- The text with every occurrence of a non-empty `old` replaced, from left to right. -/
def replace (old new text : Text) : Text :=
  replaceFrom old new 0 text

/-- The text without the characters at both ends that satisfy `p`. -/
def stripWhile (p : Char → Bool) (text : Text) : Text :=
  ((text.dropWhile p).reverse.dropWhile p).reverse

/-- The pieces of a text between the occurrences of a character; there is always one. -/
def pieces (separator : Char) : Text → List Text
  | [] => [[]]
  | c :: rest =>
    if c == separator then [] :: pieces separator rest
    else
      match pieces separator rest with
      | [] => [[c]]
      | piece :: more => (c :: piece) :: more

/-- The number of bytes that a text takes as UTF-8. -/
def byteSize : Text → Nat
  | [] => 0
  | c :: rest => c.utf8Size + byteSize rest

end Text

end GroqSnippets
