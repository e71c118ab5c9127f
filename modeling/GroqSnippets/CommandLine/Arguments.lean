/-
The words of a command line.

A word that starts with a dash mentions parameters: two dashes and a long name, with a value behind
an equals sign if there is one, or one dash and letters, of which the first that takes a value takes
the rest of the word.  A parameter whose value is not in the same word takes the next word, whatever
that is.  Two dashes alone end the parameters.  All other words are left over, and so is a single
dash.

One word is read after the other.  All that has to be remembered between two words is the parameter
that waits for its value.
-/
import GroqSnippets.CommandLine.UsageError
import GroqSnippets.Text.Similarity

namespace GroqSnippets

/-- The words of a command line, sorted. -/
structure Arguments where
  /-- The parameters that are given, in order, with their values; a switch has an empty one. -/
  given : List (Parameter × Text) := []
  rest : List Text := []
deriving DecidableEq, Repr

/-! ### A single word -/

structure Mention where
  /-- The parameters that are complete. -/
  given : List (Parameter × Text) := []
  /-- The parameter that still waits for its value, under the name by which it was mentioned. -/
  waiting : Option (Parameter × Text) := none
deriving DecidableEq, Repr

namespace Mention

def withSwitch (switch : Parameter) (mention : Mention) : Mention :=
  { mention with given := (switch, []) :: mention.given }

/-- What letters behind a dash mention. -/
def ofLetters (parameters : List Parameter) : Text → Except UsageError Mention
  | [] => .ok {}
  | letter :: rest =>
    match parameters.find? (·.letter? == some letter) with
    | none => .error (.unknownParameter ['-', letter] [])
    | some parameter =>
      if parameter.isSwitch then (ofLetters parameters rest).map (withSwitch parameter)
      else if rest.isEmpty then .ok { waiting := some (parameter, ['-', letter]) }
      else .ok { given := [(parameter, rest)] }

/-- What a parameter that is mentioned by its long name mentions. -/
def ofParameter (parameter : Parameter) (value : Option Text) : Except UsageError Mention :=
  match value with
  | none =>
    if parameter.isSwitch then .ok { given := [(parameter, [])] }
    else .ok { waiting := some (parameter, parameter.longName) }
  | some value =>
    if parameter.isSwitch then .error (.valueRefused parameter.longName)
    else .ok { given := [(parameter, value)] }

def split (word : Text) : Text × Option Text :=
  let name := word.takeWhile (· != '=')
  (name, (word.drop name.length).tail?)

/-- What a word that starts with a dash mentions. -/
def ofWord (parameters : List Parameter) (word : Text) : Except UsageError Mention :=
  let (name, value) := split word
  match parameters.find? (·.longName == name) with
  | some parameter => ofParameter parameter value
  | none =>
    if "--".toList.isPrefixOf word then
      .error (.unknownParameter name (Text.closeWords (parameters.map (·.longName)) name))
    else ofLetters parameters (word.drop 1)

end Mention

/-! ### All words

A waiting parameter takes the next word before anything is asked about it, so a value may look like
a parameter, and two dashes may be a value.
-/

/-- Whether a word starts with a dash and goes on. -/
def isMention : Text → Bool
  | '-' :: _ :: _ => true
  | _ => false

namespace Arguments

def withGiven (given : List (Parameter × Text)) (arguments : Arguments) : Arguments :=
  { arguments with given := given ++ arguments.given }

def withWord (word : Text) (arguments : Arguments) : Arguments :=
  { arguments with rest := word :: arguments.rest }

/-- The arguments in a row of words, given the parameter that waits for its value.  Parameters are
looked for behind a word that is left over only if `mixed` says so. -/
def readFrom (parameters : List Parameter) (mixed : Bool) :
    (waiting : Option (Parameter × Text)) → List Text → Except UsageError Arguments
  | none, [] => .ok {}
  | some (_, name), [] => .error (.valueMissing name)
  | some (parameter, _), word :: words =>
    (readFrom parameters mixed none words).map (withGiven [(parameter, word)])
  | none, word :: words =>
    if word == "--".toList then .ok { rest := words }
    else if isMention word then do
      let mention ← Mention.ofWord parameters word
      return (← readFrom parameters mixed mention.waiting words).withGiven mention.given
    else if mixed then (readFrom parameters mixed none words).map (withWord word)
    else .ok { rest := word :: words }

/-- The arguments of a command, among whose parameters other words may stand. -/
def ofWords (command : Command) (words : List Text) : Except UsageError Arguments :=
  readFrom command.parameters true none words

/-- The arguments in front of a command, which end at the first other word. -/
def leading (words : List Text) : Except UsageError Arguments :=
  readFrom leadingParameters false none words

def values (arguments : Arguments) (parameter : Parameter) : List Text :=
  (arguments.given.filter (·.1 == parameter)).map (·.2)

def has (arguments : Arguments) (parameter : Parameter) : Bool :=
  arguments.given.any (·.1 == parameter)

/-- Parameters in the order in which they are looked at: those that are given first, as they came
up, then the others. -/
def inTurn (arguments : Arguments) (parameters : List Parameter) : List Parameter :=
  let given := (arguments.given.map (·.1)).eraseDups
  given ++ parameters.filter fun parameter => !given.contains parameter

end Arguments

end GroqSnippets
