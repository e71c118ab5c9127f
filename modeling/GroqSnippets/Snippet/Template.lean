/-
A language of templates.

This is the language in which the program itself has its templates filled; it is one of those that
an engine may bring.  A template is text with slots.  A slot names a value between two pairs of
braces, with blanks where one likes, and may pass it through filters, of which there is one: it
makes the first letter a capital.  Values are inserted as they are and never read as template text,
and a name without a value leaves the slot empty.

A remark stands between a brace with a hash mark and its reverse, and leaves nothing behind.  A
hyphen at the outer edge of a slot or a remark takes the blanks beyond it away, up to the next slot
or remark; a plus sign at the start does nothing.  Statements, between braces with percent signs,
are not known.

The text of a template is read with every line break as a line feed, and without the break at its
very end, so a template file may end like any other file.
-/
import GroqSnippets.Text.Blank
import GroqSnippets.Text.Identifier
import GroqSnippets.Text.Line
import GroqSnippets.Text.Upper

namespace GroqSnippets

/-! ### Templates and what can go wrong with them

A template is kept character by character, because the blanks around a slot may have to go.  What
can go wrong is told apart by when it does: with the path of a template, with its file, with what is
read in it, or only when a slot is filled.
-/

/-- What a slot starts from: the value with a name, or a constant as it is printed. -/
inductive Operand where
  | value (name : Text)
  | constant (text : Text)
deriving DecidableEq, Repr

structure Slot where
  operand : Operand
  filters : List Text := []
deriving DecidableEq, Repr

/-- A part of a template: a character that is copied, or a slot. -/
inductive TemplatePart where
  | char (char : Char)
  | slot (slot : Slot)
deriving DecidableEq, Repr

structure Template where
  parts : List TemplatePart
deriving DecidableEq, Repr

inductive TemplateError where
  | longPath
  | undecodable
  | malformed
  | unknownFilter
  /-- A filter is given a name without a value. -/
  | undefinedValue
  /-- A filter is given a constant that is no text. -/
  | filteredConstant
deriving DecidableEq, Repr

def TemplateError.message : TemplateError → Text
  | longPath => "The path of the template directory is too long.".toList
  | undecodable => "The template is not valid UTF-8.".toList
  | malformed => "The template is not well formed.".toList
  | unknownFilter => "The template asks for an unknown filter.".toList
  | undefinedValue => "The template filters an undefined value.".toList
  | filteredConstant => "The template filters a constant that is no text.".toList

/-! ### Reading slots and remarks

Each of these is given what stands behind the two characters that open a slot or a remark, and gives
back what stands behind its end, with the places at its edges where blanks are taken away.
-/

def capitalFilter : Text :=
  "upper_first".toList

/-- The words that are constants, and how they are printed. -/
def constantText? (word : Text) : Option Text :=
  [("true", "True"), ("True", "True"), ("false", "False"), ("False", "False"), ("none", "None"),
    ("None", "None")].findSome? fun (name, printed) =>
      if word == name.toList then some printed.toList else none

/-- The operand that a word stands for.  The word for negation has to be followed by something, so
it is none by itself. -/
def Operand.ofWord? (word : Text) : Option Operand :=
  if !word.isIdentifier || word == "not".toList then none
  else
    match constantText? word with
    | some text => some (.constant text)
    | none => some (.value word)

/-- The slot with a text between its braces: words between bars, with blanks around them. -/
def Slot.ofText? (text : Text) : Option Slot :=
  match (Text.pieces '|' text).map Text.trim with
  | [] => none
  | word :: filters => do
    let operand ← Operand.ofWord? word
    if filters.all Text.isIdentifier then some { operand, filters } else none

/-- What the text of a template is first read as.  In front of a trim, blanks are taken away. -/
inductive TemplateToken where
  | char (char : Char)
  | trim
  | slot (slot : Slot)
  | remark
deriving DecidableEq, Repr

/-- The signs at the start of a slot or a remark: what a hyphen asks for, and what follows the
sign. -/
def openingSign : Text → List TemplateToken × Text
  | '-' :: rest => ([.trim], rest)
  | '+' :: rest => ([], rest)
  | rest => ([], rest)

/-- The slot whose opening braces have been read, and what follows its closing ones. -/
def slotAt? (text : Text) : Option (List TemplateToken × Text) :=
  let (sign, inner) := openingSign text
  let body := inner.takeWhile (· != '}')
  match inner.drop body.length with
  | '}' :: '}' :: after => do
    if body.getLast? == some '-' then
      return (sign ++ [.slot (← Slot.ofText? body.dropLast)], Text.trimStart after)
    else return (sign ++ [.slot (← Slot.ofText? body)], after)
  | _ => none

/-- What follows the end of a remark. -/
def afterRemark? : Text → Option Text
  | [] => none
  | '-' :: '#' :: '}' :: rest => some (Text.trimStart rest)
  | '#' :: '}' :: rest => some rest
  | _ :: rest => afterRemark? rest

/-- The remark whose opening has been read, and what follows it.  A remark that starts where the
text ends needs no end. -/
def remarkAt? (text : Text) : Option (List TemplateToken × Text) :=
  match openingSign text with
  | (sign, []) => some (sign ++ [.remark], [])
  | (sign, inner) => (afterRemark? inner).map fun after => (sign ++ [.remark], after)

/-! ### Reading templates

Whether a blank stays depends on what comes after it, as far as the next slot or remark.  So a text
is cut into tokens first, and the blanks are settled when all of them are known.
-/

namespace Template

/-- The tokens of a template's text.  `skip` counts the characters of a slot or a remark that are
still to be passed over. -/
def tokensFrom : (skip : Nat) → Text → Option (List TemplateToken)
  | _, [] => some []
  | skip + 1, _ :: rest => tokensFrom skip rest
  | 0, '{' :: '{' :: rest => do
    let (tokens, after) ← slotAt? rest
    return tokens ++ (← tokensFrom (rest.length - after.length + 1) ('{' :: rest))
  | 0, '{' :: '#' :: rest => do
    let (tokens, after) ← remarkAt? rest
    return tokens ++ (← tokensFrom (rest.length - after.length + 1) ('#' :: rest))
  | 0, '{' :: '%' :: _ => none
  | 0, c :: rest => (tokensFrom 0 rest).map (.char c :: ·)

/-- Whether nothing but blanks stands in front of a place where blanks are taken away. -/
def leadsToTrim : List TemplateToken → Bool
  | .char c :: tokens => isBlank c && leadsToTrim tokens
  | .trim :: _ => true
  | _ => false

/-- The parts that are left when blanks are taken away and remarks are left out. -/
def settle : List TemplateToken → List TemplatePart
  | [] => []
  | .char c :: tokens => if isBlank c && leadsToTrim tokens then settle tokens else .char c :: settle tokens
  | .slot slot :: tokens => .slot slot :: settle tokens
  | .trim :: tokens | .remark :: tokens => settle tokens

def knowsFilters : TemplatePart → Bool
  | .slot slot => slot.filters.all (· == capitalFilter)
  | .char _ => true

def dropFinalNewline (text : Text) : Text :=
  if text.getLast? == some '\n' then text.dropLast else text

def ofText (text : Text) : Except TemplateError Template :=
  match tokensFrom 0 (dropFinalNewline text.normalizeNewlines) with
  | none => .error .malformed
  | some tokens =>
    let parts := settle tokens
    if parts.all knowsFilters then .ok ⟨parts⟩ else .error .unknownFilter

/-! ### Filling templates

A template that is well formed may still fail here, because a filter wants a value to work on.
-/

/-- What a part becomes, given the values. -/
def renderPart (value? : Text → Option Text) : TemplatePart → Except TemplateError Text
  | .char c => .ok [c]
  | .slot ⟨.constant text, filters⟩ => if filters.isEmpty then .ok text else .error .filteredConstant
  | .slot ⟨.value name, filters⟩ =>
    match value? name with
    | some value => .ok (filters.foldl (fun value _ => capitalize value) value)
    | none => if filters.isEmpty then .ok [] else .error .undefinedValue

def render (template : Template) (value? : Text → Option Text) : Except TemplateError Text :=
  List.flatten <$> template.parts.mapM (renderPart value?)

def fill (text : Text) (value? : Text → Option Text) : Except TemplateError Text := do
  (← ofText text).render value?

example :
    let filled (text : String) : Option Text :=
      (fill text.toList fun name => if name == "a".toList then some "one".toList else none).toOption
    filled "{{ a | upper_first }},{{b}}.\r\n" = some "One,.".toList
      ∧ filled " {{- a -}} {# b #}." = some "one.".toList
      ∧ filled "{{{ a }}}" = none
      ∧ filled "{{ b | upper_first }}" = none := by
  decide +kernel

end Template

end GroqSnippets
