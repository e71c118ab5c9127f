/-
JSON documents as they are printed.

A document is built from truth values, texts, lists and objects whose entries keep the order in
which they were written.  Numbers and null do not occur in what this library prints.

The printed form has one item or entry to a line, indented by two spaces for each level, and
contains printable ASCII only: every other character of a text is written by its UTF-16 units, so
a character above the basic plane takes two escapes.
-/
import GroqSnippets.Text.Basic

namespace GroqSnippets

/-- A JSON document. -/
inductive Json where
  | bool (value : Bool)
  | text (value : Text)
  | list (items : List Json)
  /-- An object, its entries in order. -/
  | object (entries : List (Text × Json))

namespace Json

/-! ### Strings -/

/-- A UTF-16 unit as four hexadecimal digits behind a backslash and a `u`. -/
def escapeUnit (unit : Nat) : Text :=
  ['\\', 'u', Nat.digitChar (unit / 0x1000 % 16), Nat.digitChar (unit / 0x100 % 16),
    Nat.digitChar (unit / 0x10 % 16), Nat.digitChar (unit % 16)]

/-- A character inside a string. -/
def escape (c : Char) : Text :=
  if c == '"' || c == '\\' then ['\\', c]
  else if c == '\n' then ['\\', 'n']
  else if c == '\r' then ['\\', 'r']
  else if c == '\t' then ['\\', 't']
  else if c == '\x08' then ['\\', 'b']
  else if c == '\x0c' then ['\\', 'f']
  else if ' ' ≤ c ∧ c ≤ '~' then [c]
  else if c.toNat < 0x10000 then escapeUnit c.toNat
  else
    escapeUnit (0xD800 + (c.toNat - 0x10000) / 0x400) ++ escapeUnit (0xDC00 + (c.toNat - 0x10000) % 0x400)

def quote (value : Text) : Text :=
  '"' :: value.flatMap escape ++ ['"']

/-! ### Documents -/

def newLine (level : Nat) : Text :=
  '\n' :: List.replicate (2 * level) ' '

mutual

/-- The printed form of a document that stands at a level. -/
def renderAt (level : Nat) : Json → Text
  | bool true => "true".toList
  | bool false => "false".toList
  | text value => quote value
  | list items =>
    if items.isEmpty then "[]".toList
    else '[' :: renderItems (level + 1) items ++ newLine level ++ [']']
  | object entries =>
    if entries.isEmpty then ['{', '}']
    else '{' :: renderEntries (level + 1) entries ++ newLine level ++ ['}']

/-- The lines of the items of an array. -/
def renderItems (level : Nat) : List Json → Text
  | [] => []
  | item :: items =>
    newLine level ++ item.renderAt level ++ (if items.isEmpty then [] else [',']) ++ renderItems level items

/-- The lines of the entries of an object. -/
def renderEntries (level : Nat) : List (Text × Json) → Text
  | [] => []
  | (key, value) :: entries =>
    newLine level ++ quote key ++ [':', ' '] ++ value.renderAt level
      ++ (if entries.isEmpty then [] else [',']) ++ renderEntries level entries

end

def render (document : Json) : Text :=
  document.renderAt 0

example : quote "a\"\\\n\x7fé😀".toList = "\"a\\\"\\\\\\n\\u007f\\u00e9\\ud83d\\ude00\"".toList := by
  decide +kernel

end Json

end GroqSnippets
