/-
Text on its way to a terminal.

A control sequence is an escape character and an opening square bracket, then parameters (digits
and the punctuation from the colon to the question mark), then intermediates (the blank and the
punctuation before the digits), and one final character from the at sign to the tilde.  Messages
and snippets that are printed lose their control sequences; files and the log keep them.
-/
import GroqSnippets.Text.Basic

namespace GroqSnippets

/-- Whether a character may be a parameter of a control sequence. -/
def isControlParameter (c : Char) : Bool :=
  0x30 ≤ c.toNat && c.toNat ≤ 0x3F

/-- Whether a character may stand between the parameters and the end of a control sequence. -/
def isControlIntermediate (c : Char) : Bool :=
  0x20 ≤ c.toNat && c.toNat ≤ 0x2F

/-- Whether a character may end a control sequence. -/
def isControlFinal (c : Char) : Bool :=
  0x40 ≤ c.toNat && c.toNat ≤ 0x7E

namespace Text

/-- The number of characters of a control sequence that follow its escape character, given what
follows it, or zero if this is no control sequence. -/
def controlTail : Text → Nat
  | '[' :: rest =>
    let parameters := rest.takeWhile isControlParameter
    let intermediates := (rest.drop parameters.length).takeWhile isControlIntermediate
    match rest.drop (parameters.length + intermediates.length) with
    | last :: _ => if isControlFinal last then parameters.length + intermediates.length + 2 else 0
    | [] => 0
  | _ => 0

/-- The text without its control sequences.  `skip` counts the characters of a sequence that are
still to be passed over. -/
def withoutControlsFrom : (skip : Nat) → Text → Text
  | _, [] => []
  | skip + 1, _ :: rest => withoutControlsFrom skip rest
  | 0, c :: rest =>
    let tail := if c == '\x1b' then controlTail rest else 0
    if tail = 0 then c :: withoutControlsFrom 0 rest else withoutControlsFrom tail rest

/-- The text without its control sequences. -/
def withoutControls (text : Text) : Text :=
  withoutControlsFrom 0 text

example : withoutControls "a\x1b[1;31mb\x1b[0 q\x1b[?25lc\x1b[~".toList = "abc".toList
    ∧ withoutControls "\x1b[1;31\x1b(B\x1b[ 1m\x1b[".toList = "\x1b[1;31\x1b(B\x1b[ 1m\x1b[".toList := by
  decide +kernel

end Text

end GroqSnippets
