/-
Sessions.

A session is a row of steps on a shared state: a current schema, the last queries and the last
snippet, a formatter, and a reader and a draft that may be used again and again.  Every step gives
an answer, and a step that cannot be done changes nothing.
-/
import GroqSnippets.Generation
import GroqSnippets.Query.Draft
import GroqSnippets.Schema.Reader

namespace GroqSnippets

/-! ### Steps and answers

A step does one thing that a caller of the library can do, on what earlier steps have left.  What it
answers is what the caller would see of it: a reader and a draft show their warnings as well, since
they keep them between their uses.
-/

/-- What the steps of a session work on: a current schema, what was built and formatted last, and
what is kept for use again. -/
structure Session where
  schema : Schema := {}
  queries : Option Queries := none
  snippet : Text := []
  formatter : Formatter := {}
  reader : Option Reader := none
  draft : Option Draft := none
deriving DecidableEq, Repr

/-- A step of a session.  A source that is handed over may turn out to be no text. -/
inductive Step where
  | read (source : Option Text)
  | take (schema : Schema)
  | clear
  | exclude (patterns : List Text)
  /-- Compares the current schema with another one. -/
  | compare (schema : Schema)
  | find (name : Text)
  | build
  | startDraft
  | buildDraft
  | startReader (source : Option Text)
  /-- Lets the reader read, after its source is replaced if there is a new one. -/
  | runReader (replacement : Option (Option Text))
  | configure (given : SettingName → Option Setting)
  | format (kind : Text)
  | addHeader (header kind : Text)

inductive Answer where
  /-- There is nothing to work on. -/
  | nothing
  | schema (schema : Schema)
  /-- The new current schema, and whether it describes the same as the old one. -/
  | excluded (schema : Schema) (same : Bool)
  /-- The new current schema, and the warnings the reader holds. -/
  | reread (schema : Schema) (warnings : List Text)
  | truth (value : Bool)
  | field (field : Option Field)
  | queries (queries : Queries)
  | drafted (queries : Queries) (warnings : List Text)
  | warnings (warnings : List Text)
  | text (value : Text)

inductive StepError where
  | unknownKind
  | misfits (settings : List SettingName)
  | template (error : TemplateError)
deriving DecidableEq, Repr

/-! ### Runs -/

namespace Session

def step (session : Session) : Step → Except StepError (Session × Answer)
  | .read source =>
    let schema := (source.map Schema.ofSource).getD Schema.empty
    .ok ({ session with schema }, .schema schema)
  | .take schema => .ok ({ session with schema }, .schema schema)
  | .clear => .ok ({ session with schema := Schema.empty }, .schema Schema.empty)
  | .exclude patterns =>
    let schema := session.schema.exclude patterns
    .ok ({ session with schema }, .excluded schema (session.schema.describesSame schema))
  | .compare schema => .ok (session, .truth (session.schema.describesSame schema))
  | .find name => .ok (session, .field (session.schema.field? name))
  | .build =>
    let queries := session.schema.queries
    .ok ({ session with queries := some queries }, .queries queries)
  | .startDraft =>
    let draft := Draft.ofSchema session.schema
    .ok ({ session with draft := some draft }, .warnings draft.warnings)
  | .buildDraft =>
    match session.draft with
    | none => .ok (session, .nothing)
    | some draft =>
      let (queries, draft) := draft.build
      .ok ({ session with draft := some draft }, .drafted queries draft.warnings)
  | .startReader source =>
    let reader : Reader := { source }
    .ok ({ session with reader := some reader }, .warnings reader.warnings)
  | .runReader replacement =>
    match session.reader with
    | none => .ok (session, .nothing)
    | some reader =>
      let (schema, reader) := { reader with source := replacement.getD reader.source }.read
      .ok ({ session with schema, reader := some reader }, .reread schema reader.warnings)
  | .configure given => do
    let config ← (Config.ofSettings given).mapError .misfits
    let formatter ← (Formatter.ofConfig config (.withoutFiles config)).mapError .template
    return ({ session with formatter }, .text config.fileExtension)
  | .format kind =>
    match QueryKind.ofName? kind with
    | none => .error .unknownKind
    | some kind =>
      match session.queries.bind (·.query? kind) with
      | none => .ok (session, .nothing)
      | some query => do
        let snippet ← (session.formatter.format query session.schema.typeName kind.name).mapError .template
        return ({ session with snippet }, .text snippet)
  | .addHeader header kind =>
    match QueryKind.ofName? kind with
    | none => .error .unknownKind
    | some kind =>
      let snippet := withHeader header kind session.snippet
      .ok ({ session with snippet }, .text snippet)

def run (session : Session) : List Step → List (Except StepError Answer)
  | [] => []
  | step :: steps =>
    match session.step step with
    | .ok (next, answer) => .ok answer :: next.run steps
    | .error error => .error error :: session.run steps

end Session

end GroqSnippets
