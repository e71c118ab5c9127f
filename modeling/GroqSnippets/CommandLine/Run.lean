/-
Running a command line.

The schema comes from a file or from the input.  One command prints what is read from it, as JSON.
The other one makes its snippets, and prints them or writes them to a directory, one file each.

A run ends early when the command line is mistaken, when the schema yields nothing, or when the
host fails; the log and everything else that was written before that stays.
-/
import GroqSnippets.CommandLine.Log
import GroqSnippets.Path
import GroqSnippets.CommandLine.Request
import GroqSnippets.Generation
import GroqSnippets.Schema.ToJson

namespace GroqSnippets

/-- Why a run ends early. -/
inductive Stop where
  | mistake (error : UsageError)
  /-- The schema yields nothing, or the template does. -/
  | failure (error : GenerationError)
  | fault (fault : Fault)
  /-- The host may not look for templates, or may not read the one that is there. -/
  | forbidden
deriving DecidableEq, Repr

namespace Stop

/-- The end of a run over a mistake; to a host, what is no path is a fault. -/
def ofMistake : UsageError → Stop
  | .unfit _ (.noPath _) => .fault .noPath
  | error => .mistake error

/-- The end of a run whose engine stops it on its own. -/
def ofGeneration : GenerationError Stop → Stop
  | .emptySource => .failure .emptySource
  | .unreadable => .failure .unreadable
  | .template stop => stop

def message : Stop → Text
  | .mistake error => error.message
  | .failure error => error.message
  | .fault cause => cause.message
  | .forbidden => "The template may not be read.".toList

/-- Whether a run says why it ends.  Faults of the host, and templates that yield no text, are left
to the host. -/
def isReported : Stop → Bool
  | .fault _ | .forbidden | .failure (.template _) => false
  | _ => true

end Stop

def exitCode : Except Stop Unit → Nat
  | .ok _ => 0
  | .error (.mistake _) => 2
  | .error _ => 1

section

variable {m : Type → Type} [Monad m] [Host m]

/-! ### Reading -/

def readSource (path : Text) : m (Except Fault Text) :=
  Host.decode <$> if path == inputPath then Host.readInput else Host.readFile path

/-- Writes the lines of the log that are shown. -/
def writeLog (isVerbose : Bool) (lines : List LogLine) : m Unit :=
  Host.remark ((lines.filter (·.isShown isVerbose)).flatMap LogLine.render)

/-! ### Templates

Whether there is a directory is asked first, and a host that may not tell stops the run.  A file
that may not be looked for counts as missing, so it is only one that is there and may not be read
that does the same.
-/

namespace TemplateEngine

/-- The engine that looks for templates on the host. -/
def ofHost : TemplateEngine m Stop where
  isDirectory path := do
    match ← Host.kind (m := m) path with
    | .directory | .lockedDirectory => return true
    | .forbidden => throw .forbidden
    | .tooLong => throw (.failure (.template .longPath))
    | .missing | .file | .lockedFile | .noPath => return false
  find? directory := do
    let path := directory ++ '/' :: templateFile
    match ← Host.kind (m := m) path with
    | .file =>
      match Host.decode (← Host.readFile (m := m) path) with
      | .ok content => return some content
      | .error _ => throw (.failure (.template .undecodable))
    | .lockedFile => throw .forbidden
    | _ => return none
  fill template values :=
    ExceptT.mk (pure ((Template.fill template values.value?).mapError fun error => .failure (.template error)))

end TemplateEngine

/-! ### Snippets

Snippets are made in full before the first of them is printed or written.  So a template that fails
leaves nothing behind, while a path that fails leaves the files before it.
-/

def printSnippets (snippets : Snippets) : m Unit :=
  snippets.items.forM fun (kind, snippet) => do
    Host.printLine ("// ".toList ++ kind.name)
    Host.printLine snippet
    Host.printLine []

def snippetFile (config : Config) (snippets : Snippets) (kind : QueryKind) : Text :=
  exportName snippets.typeName kind.name ++ config.fileExtension

def writeSnippets (request : GenerateRequest) (snippets : Snippets) (directory : Text) : ExceptT Fault m Unit := do
  let directory ← ExceptT.mk (Host.makeDirectory (m := m) directory)
  for (kind, snippet) in snippets.items do
    let path := Path.inside directory (snippetFile request.config snippets kind)
    ExceptT.mk (Host.writeFile (m := m) path (snippet ++ ['\n']))
    if request.isVerbose then Host.remarkLine (m := m) ("  Wrote ".toList ++ path)
  let count := (toString snippets.items.length).toList
  Host.printLine (m := m) ("Done! Generated ".toList ++ count ++ " queries in ".toList ++ directory)

/-- What a verbose run tells about the snippets. -/
def describeSnippets (snippets : Snippets) : m Unit := do
  Host.remarkLine ("Type: ".toList ++ snippets.typeName)
  Host.remarkLine ("  Queries: ".toList ++ (toString snippets.items.length).toList)
  snippets.warnings.forM fun warning => Host.remarkLine ("  Warning: ".toList ++ warning)

/-- The hooks that are asked for. -/
def GenerateRequest.hooks (request : GenerateRequest) : List (Hook m) :=
  if request.exclusions.isEmpty then [] else [.exclusion request.exclusions]

def Generation.log {ε : Type} (generation : Generation ε) : List LogLine :=
  generation.notes.map LogLine.ofNote ++ generation.builtFor.toList.map LogLine.generated

/-- Makes the snippets for a schema.  The log is written before anything is said about a failure. -/
def makeSnippets (request : GenerateRequest) (source : Text) : ExceptT Stop m Snippets := do
  let generation ← request.config.generate (m := m) .ofHost request.hooks source
  writeLog (m := m) request.isVerbose generation.log
  generation.result.mapError Stop.ofGeneration

/-! ### Commands -/

/-- Makes the snippets for a schema and prints them or writes them to a directory. -/
def runGenerate (request : GenerateRequest) : ExceptT Stop m Unit := do
  let source ← (ExceptT.mk (readSource (m := m) request.schema)).adapt Stop.fault
  let snippets ← makeSnippets (m := m) request source
  if request.isVerbose then describeSnippets (m := m) snippets
  match request.output with
  | none => printSnippets (m := m) snippets
  | some directory => (writeSnippets (m := m) request snippets directory).adapt Stop.fault

/-- Prints what is read from a schema.  Only the warnings are remarked, each as it is. -/
def runParse (path : Text) : ExceptT Stop m Unit := do
  let source ← (ExceptT.mk (readSource (m := m) path)).adapt Stop.fault
  let schema := Schema.ofSource source
  schema.warnings.forM fun warning => Host.remark (m := m) (warning ++ ['\n'])
  Host.printLine (m := m) schema.toJson.render
  if schema.isUnreadable then throw (.failure .unreadable)

def versionText : Text :=
  "version 1.0.0".toList

def helpText : Text :=
  "Commands: ".toList ++ ", ".toList.intercalate (Command.all.map (·.name))
    ++ (Command.all.flatMap fun command =>
      "\nOptions of ".toList ++ command.name ++ ": ".toList
        ++ ", ".toList.intercalate (command.parameters.map (·.longName)))

def Request.run : Request → ExceptT Stop m Unit
  | .generate request => runGenerate request
  | .parse path => runParse path
  | .version => Host.printLine (m := m) versionText
  | .help => Host.printLine (m := m) helpText

/-- Runs a command line, and says why if it ends early. -/
def runCommandLine (words : List Text) : m (Except Stop Unit) := do
  let outcome ← ((Request.ofWords (m := m) words).adapt Stop.ofMistake >>= Request.run).run
  if let .error stop := outcome then
    if stop.isReported then Host.remarkLine ("Error: ".toList ++ stop.message)
  return outcome

end

end GroqSnippets
