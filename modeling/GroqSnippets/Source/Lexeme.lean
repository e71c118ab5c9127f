/-
Lexemes of schema source.

Schema source is read as a row of lexemes: a single character of code, a quoted literal with its
quotes, a regex literal with its slashes and flags, or a comment.  Only the extent of literals and
comments matters, because keys and brackets inside them are not code.

A slash is the one character whose meaning depends on what stands before it.  It opens a regex
literal at the start of a scan and after an opening bracket or an operator, and is a division
after an operand.  The last code character that is not blank settles which, and a literal counts
there with its first character, so nothing after a literal is a regex.  A regex literal that is not
closed on its line is no literal, and its slash is an ordinary character.
-/
import GroqSnippets.Text.Blank
import GroqSnippets.Text.Letter

namespace GroqSnippets

/-- The smallest units of schema source. -/
inductive Lexeme where
  | code (char : Char)
  /-- A string or template literal, from its quote through the next same quote that is not escaped. -/
  | quoted (text : Text)
  /-- A regex literal, from its slash through its flags. -/
  | regex (text : Text)
  /-- A comment to the end of its line, or from its opening mark through its closing mark. -/
  | comment (text : Text)
deriving DecidableEq, Repr

def isQuote (c : Char) : Bool :=
  c == '\'' || c == '"' || c == '`'

/-- The code characters after which a slash opens a regex literal. -/
def isRegexPreceder (c : Char) : Bool :=
  "(,=:[!&|?{};".toList.contains c

/-- Whether a slash may open a regex literal, by the last code character before it. -/
def opensRegex (last : Option Char) : Bool :=
  last.all isRegexPreceder

namespace Lexeme

def text : Lexeme → Text
  | code c => [c]
  | quoted text | regex text | comment text => text

def isComment : Lexeme → Bool
  | comment _ => true
  | _ => false

/-- The last code character that is not blank, once the lexeme is read: comments and blanks change
nothing, and a literal counts with its first character. -/
def lastAfter (last : Option Char) : Lexeme → Option Char
  | code c => if isBlank c then last else some c
  | quoted text | regex text => text.head?
  | comment _ => last

/-! ### The extent of literals and comments

Each function is given what follows the opening character and answers with the part that still
belongs to the lexeme.  A backslash takes the next character with it, whatever that is.
-/

/-- The rest of a quoted literal after its opening quote; without a closing quote it is all that follows. -/
def quotedRest (quote : Char) : Text → Text
  | [] => []
  | ['\\'] => ['\\']
  | '\\' :: c :: rest => '\\' :: c :: quotedRest quote rest
  | c :: rest => if c = quote then [c] else c :: quotedRest quote rest

/-- The rest of a regex literal after its opening slash, or nothing if the line ends first.  A slash
inside a bracketed class does not close the literal. -/
def regexRest? (inClass : Bool) : Text → Option Text
  | [] => none
  | '\n' :: _ => none
  | ['\\'] => none
  | '\\' :: c :: rest => (regexRest? inClass rest).map ('\\' :: c :: ·)
  | '[' :: rest => (regexRest? true rest).map ('[' :: ·)
  | ']' :: rest => (regexRest? false rest).map (']' :: ·)
  | c :: rest =>
    if c = '/' ∧ inClass = false then some (c :: rest.takeWhile isLetter)
    else (regexRest? inClass rest).map (c :: ·)

/-- The rest of a block comment after its opening mark; without a closing mark it is all that follows. -/
def blockCommentRest : Text → Text
  | [] => []
  | '*' :: '/' :: _ => ['*', '/']
  | c :: rest => c :: blockCommentRest rest

/-- The lexeme that a slash opens, given what follows the slash. -/
def ofSlash (last : Option Char) : Text → Lexeme
  | '/' :: rest => comment ('/' :: '/' :: rest.takeWhile (· != '\n'))
  | '*' :: rest => comment ('/' :: '*' :: blockCommentRest rest)
  | rest =>
    match if opensRegex last then regexRest? false rest else none with
    | some body => regex ('/' :: body)
    | none => code '/'

/-- The lexeme at the head of a text, given its first character and what follows. -/
def first (last : Option Char) (c : Char) (rest : Text) : Lexeme :=
  if isQuote c then quoted (c :: quotedRest c rest)
  else if c = '/' then ofSlash last rest
  else code c

/-! ### A lexeme is never empty -/

theorem text_ofSlash_ne_nil (last : Option Char) (rest : Text) : (ofSlash last rest).text ≠ [] := by
  unfold ofSlash
  split
  · simp [text]
  · simp [text]
  · split <;> simp [text]

theorem text_first_ne_nil (last : Option Char) (c : Char) (rest : Text) : (first last c rest).text ≠ [] := by
  unfold first
  split
  · simp [text]
  · split
    · exact text_ofSlash_ne_nil last rest
    · simp [text]

end Lexeme

end GroqSnippets
