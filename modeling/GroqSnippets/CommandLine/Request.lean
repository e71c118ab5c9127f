/-
What a command line asks for.

The words of a command line are sorted first.  Then every parameter is looked at in turn, a given
one with its last value, another one with what its variable holds; an empty variable counts for
nothing.  The first value that does not fit ends the reading.  Words that are left over are refused
only after that.
-/
import GroqSnippets.CommandLine.Arguments
import GroqSnippets.CommandLine.Host
import GroqSnippets.Snippet.Config

namespace GroqSnippets

/-- What is asked for when snippets are to be written. -/
structure GenerateRequest where
  /-- The path of the schema, or a dash for the input. -/
  schema : Text
  config : Config := {}
  /-- The directory that snippets are written to, if they are not to be printed. -/
  output : Option Text := none
  exclusions : List Text := []
  isVerbose : Bool := false
deriving DecidableEq, Repr

inductive Request where
  | generate (request : GenerateRequest)
  | parse (schema : Text)
  | version
  | help
deriving DecidableEq, Repr

def inputPath : Text :=
  ['-']

section

variable {m : Type → Type} [Monad m] [Host m]

/-! ### Values -/

def Arguments.value? (arguments : Arguments) (parameter : Parameter) : m (Option Text) := do
  match (arguments.values parameter).getLast?, parameter.variableName? with
  | some value, _ => return some value
  | none, some name => return (← Host.lookUp name).filter (!·.isEmpty)
  | none, none => return none

/-- Why a value does not fit a parameter, if it does not. -/
def Parameter.misfit? (parameter : Parameter) (value : Text) : m (Option Misfit) := do
  match parameter with
  | .schema =>
    if value == inputPath then return none
    match ← Host.kind value with
    | .missing | .forbidden | .tooLong => return some (.noFile value)
    | .directory | .lockedDirectory => return some (.notFile value)
    | .lockedFile => return some (.lockedFile value)
    | .noPath => return some (.noPath value)
    | .file => return none
  | .format => return if offeredFormats.contains value then none else some (.notOffered value)
  | .output | .templateDir =>
    match ← Host.kind value with
    | .file | .lockedFile => return some (.notDirectory value)
    | .lockedDirectory => return some (.lockedDirectory value)
    | .noPath => return some (.noPath value)
    | .missing | .directory | .forbidden | .tooLong => return none
  | _ => return none

/-- What is wrong with a parameter, if anything: its value does not fit, or it is needed and has
none. -/
def Arguments.mistake? (arguments : Arguments) (parameter : Parameter) : m (Option UsageError) := do
  match ← arguments.value? parameter with
  | some value => return (← parameter.misfit? value).map (.unfit parameter)
  | none => return if parameter == .schema then some (.parameterMissing parameter) else none

def Arguments.firstMistake? (arguments : Arguments) (parameters : List Parameter) : m (Option UsageError) :=
  (arguments.inTurn parameters).findSomeM? arguments.mistake?

/-! ### Requests

A switch in front of the command wins over everything behind it, and the help switch of a command
over every mistake in its values.
-/

/-- What a command is asked for, once its parameters are known to fit. -/
def Command.request (command : Command) (arguments : Arguments) : m Request := do
  let schema := (← arguments.value? .schema).getD []
  match command with
  | .parse => return .parse schema
  | .generate =>
    let default : Config := {}
    return .generate
      { schema
        config :=
          { outputFormat := (← arguments.value? .format).getD default.outputFormat
            helperName := (← arguments.value? .helper).getD default.helperName
            helperModule := (← arguments.value? .helperModule).getD default.helperModule
            templateDir := ← arguments.value? .templateDir
            header := ← arguments.value? .header }
        output := ← arguments.value? .output
        exclusions := arguments.values .exclude
        isVerbose := arguments.has .verbose }

def Command.requestOfWords (command : Command) (words : List Text) : ExceptT UsageError m Request := do
  let arguments ← Arguments.ofWords command words
  if arguments.has .help then return .help
  if let some mistake ← arguments.firstMistake? (m := m) command.parameters then throw mistake
  if !arguments.rest.isEmpty then throw (.extraWords arguments.rest)
  command.request (m := m) arguments

/-- What a switch in front of the command asks for. -/
def Arguments.leadingRequest? (arguments : Arguments) : Option Request :=
  arguments.given.head?.map fun (parameter, _) =>
    if parameter == .version then .version else .help

/-- What a command line asks for.  A word that names no command may still be a switch, if it stands
behind two dashes. -/
def Request.ofWords (words : List Text) : ExceptT UsageError m Request := do
  let arguments ← Arguments.leading words
  if let some request := arguments.leadingRequest? then return request
  match arguments.rest with
  | [] => throw .commandMissing
  | name :: rest =>
    match Command.ofName? name with
    | some command => command.requestOfWords rest
    | none =>
      if let some request := (← Arguments.leading (name :: rest)).leadingRequest? then return request
      throw (.unknownCommand name (Text.closeWords (Command.all.map (·.name)) name))

end

end GroqSnippets
