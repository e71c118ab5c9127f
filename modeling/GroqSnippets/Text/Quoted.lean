/-
Texts quoted in messages.

A text is quoted between single quotes, or between double quotes when it holds a single quote and
no double one.  The quote that is used, the backslash and every character that is not printable are
written as escapes, so the quoted form is a single line and its end can be seen.
-/
import GroqSnippets.Text.Printable
import GroqSnippets.Text.Basic

namespace GroqSnippets

namespace Text

/-- The lowest hexadecimal digits of a number, as many as are asked for. -/
def hexDigits (number : Nat) : (count : Nat) → Text
  | 0 => []
  | count + 1 => hexDigits (number / 16) count ++ [Nat.digitChar (number % 16)]

/-- A character between quotes. -/
def escapeBetween (quote c : Char) : Text :=
  if c == quote || c == '\\' then ['\\', c]
  else if c == '\n' then ['\\', 'n']
  else if c == '\r' then ['\\', 'r']
  else if c == '\t' then ['\\', 't']
  else if isPrintable c then [c]
  else if c.toNat < 0x100 then '\\' :: 'x' :: hexDigits c.toNat 2
  else if c.toNat < 0x10000 then '\\' :: 'u' :: hexDigits c.toNat 4
  else '\\' :: 'U' :: hexDigits c.toNat 8

/-- The quote that goes around a text. -/
def quoteFor (text : Text) : Char :=
  if text.contains '\'' && !text.contains '"' then '"' else '\''

/-- The text between quotes. -/
def quoted (text : Text) : Text :=
  let quote := quoteFor text
  quote :: text.flatMap (escapeBetween quote) ++ [quote]

example : quoted "it".toList = "'it'".toList ∧ quoted "it's".toList = "\"it's\"".toList
    ∧ quoted "'\"\\\n".toList = "'\\'\"\\\\\\n'".toList
    ∧ quoted ("é\x1b\u200b".toList ++ [Char.ofNat 0xE0001]) = "'é\\x1b\\u200b\\U000e0001'".toList := by
  decide +kernel

end Text

end GroqSnippets
