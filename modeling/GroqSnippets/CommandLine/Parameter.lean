/-
Commands and their parameters.

There are two commands: one writes the snippets for a schema, the other one shows what is read from
it.  A parameter has a long name, and the frequent ones have a letter besides.  Most parameters
take a value; a switch takes none.  Some values may come from the environment instead.
-/
import GroqSnippets.Text.Quoted

namespace GroqSnippets

/-! ### Parameters -/

/-- A parameter of a command. -/
inductive Parameter where
  | schema
  | format
  | output
  | header
  /-- A glob for fields to leave out, any number of times. -/
  | exclude
  | helper
  | helperModule
  | templateDir
  | verbose
  | version
  /-- A switch: tell how to call the program. -/
  | help
deriving DecidableEq, Repr

namespace Parameter

def longName : Parameter → Text
  | schema => "--schema".toList
  | format => "--format".toList
  | output => "--output".toList
  | header => "--header".toList
  | exclude => "--exclude".toList
  | helper => "--helper".toList
  | helperModule => "--helper-module".toList
  | templateDir => "--template-dir".toList
  | verbose => "--verbose".toList
  | version => "--version".toList
  | help => "--help".toList

def letter? : Parameter → Option Char
  | schema => some 's'
  | format => some 'f'
  | output => some 'o'
  | exclude => some 'x'
  | verbose => some 'v'
  | _ => none

/-- The name that is made from the letter. -/
def shortName? (parameter : Parameter) : Option Text :=
  parameter.letter?.map (['-', ·])

def isSwitch : Parameter → Bool
  | verbose | version | help => true
  | _ => false

/-- The variable of the environment that may hold the value. -/
def variableName? : Parameter → Option Text
  | format => some "GROQ_GEN_FORMAT".toList
  | helper => some "GROQ_GEN_HELPER".toList
  | helperModule => some "GROQ_GEN_HELPER_MODULE".toList
  | templateDir => some "GROQ_GEN_TEMPLATE_DIR".toList
  | _ => none

/-- The names of a parameter, as messages give them. -/
def hint (parameter : Parameter) : Text :=
  " / ".toList.intercalate ((parameter.longName :: parameter.shortName?.toList).map Text.quoted)

end Parameter

/-! ### Commands

Values are checked in the order in which they are given, and the parameters that are not given after
them in the order below, so it decides which of several mistakes is told.
-/

inductive Command where
  | generate
  | parse
deriving DecidableEq, Repr

namespace Command

def all : List Command :=
  [generate, parse]

def name : Command → Text
  | generate => "generate".toList
  | parse => "parse".toList

def ofName? (name : Text) : Option Command :=
  all.find? (·.name == name)

/-- The parameters of a command, in order. -/
def parameters : Command → List Parameter
  | generate =>
    [.schema, .format, .output, .header, .exclude, .helper, .helperModule, .templateDir, .verbose, .help]
  | parse => [.schema, .help]

end Command

/-- The parameters that may stand in front of the command. -/
def leadingParameters : List Parameter :=
  [.version, .help]

example : Parameter.schema.hint = "'--schema' / '-s'".toList
    ∧ Parameter.templateDir.hint = "'--template-dir'".toList := by
  decide +kernel

end GroqSnippets
