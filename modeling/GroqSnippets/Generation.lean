/-
From source to snippets.

A run reads the source, lets hooks change the schema, builds the queries, formats each of them and
lets hooks change what comes out.  A hook may act before the queries are built, after each of them
is formatted, or both; the hooks act in the order in which they are given, and a header in the
configuration acts last.

Hooks may have effects, so a run takes place in their monad.  A run that fails, because the source
is blank or nothing can be read from it, fails before any hook has acted.  Templates come from an
engine in the same monad: its directory is looked for when the queries are built, and it is asked
again for every query, so it may stop a run after some snippets have already been handed to the
hooks.
-/
import GroqSnippets.Exclusion
import GroqSnippets.Header
import GroqSnippets.Schema.Reading
import GroqSnippets.Snippet.Formatter

namespace GroqSnippets

/-! ### Hooks

A hook that does nothing at a time is no hook at that time: it is left out of the row instead of
acting as the identity, so a run has no effects but those of hooks that act.
-/

/-- What may act on a run: on the schema that queries are built from, on each formatted snippet, or
on both. -/
structure Hook (m : Type → Type) where
  pre : Option (Schema → m Schema) := none
  post : Option (QueryKind → Text → m Text) := none

namespace Hook

variable {m : Type → Type} [Monad m]

/-- Leaves out the fields whose paths match one of the globs. -/
def exclusion (patterns : List Text) : Hook m where
  pre := some fun schema => pure (schema.exclude patterns)

def header (header : Text) : Hook m where
  post := some fun kind snippet => pure (withHeader header kind snippet)

/-- Does what two hooks do, if they act at different times. -/
def both (first second : Hook m) : Hook m where
  pre := first.pre.or second.pre
  post := first.post.or second.post

/-- Lets the hooks change a schema, one after the other. -/
def runPre (hooks : List (Hook m)) (schema : Schema) : m Schema :=
  (hooks.filterMap (·.pre)).foldlM (fun schema act => act schema) schema

def runPost (hooks : List (Hook m)) (kind : QueryKind) (snippet : Text) : m Text :=
  (hooks.filterMap (·.post)).foldlM (fun snippet act => act kind snippet) snippet

end Hook

/-! ### Runs

What a run fails with is its own, but for the errors of the engine, which are passed on as they are.
-/

/-- Why a run yields no snippets. -/
inductive GenerationError (ε : Type := TemplateError) where
  | emptySource
  | unreadable
  | template (error : ε)
deriving DecidableEq, Repr

def GenerationError.message : GenerationError → Text
  | emptySource => "Please paste your Sanity schema first".toList
  | unreadable => "Could not parse schema correctly. Please check your input.".toList
  | template error => error.message

/-- The snippets for a schema.  The one by slug is there if documents have a slug. -/
structure Snippets where
  typeName : Text
  single : Text
  list : Text
  bySlug : Option Text
  warnings : List Text
deriving DecidableEq, Repr

def Snippets.items (snippets : Snippets) : List (QueryKind × Text) :=
  [(.single, snippets.single), (.list, snippets.list)]
    ++ (snippets.bySlug.map fun snippet => (QueryKind.bySlug, snippet)).toList

structure Generation (ε : Type := TemplateError) where
  notes : List Note := []
  /-- The name of the type, once its queries are built. -/
  builtFor : Option Text := none
  result : Except (GenerationError ε) Snippets

section Run

variable {m : Type → Type} [Monad m] {ε : Type}

namespace Config

variable (config : Config) (engine : TemplateEngine m ε)

/-- The hooks of a run: those that are given, and the header of the configuration. -/
def hooks (given : List (Hook m)) : List (Hook m) :=
  match config.header with
  | none | some [] => given
  | some header => given ++ [.header header]

/-- The snippet for a query, as the hooks leave it. -/
def snippet (directory : Option Text) (hooks : List (Hook m)) (typeName : Text) (kind : QueryKind)
    (query : Text) : ExceptT ε m Text := do
  let snippet ← engine.format config directory query typeName kind.name
  Hook.runPost (m := m) hooks kind snippet

def snippets (hooks : List (Hook m)) (schema : Schema) : ExceptT ε m Snippets := do
  let queries := schema.queries
  let directory ← engine.directory? config
  let snippet := config.snippet engine directory hooks schema.typeName
  let single ← snippet .single queries.single
  let list ← snippet .list queries.list
  let bySlug ← queries.bySlug.mapM (snippet .bySlug)
  return { typeName := schema.typeName, single, list, bySlug, warnings := queries.warnings }

/-- The run on a source. -/
def generate (given : List (Hook m)) (source : Text) : m (Generation ε) :=
  if source.isBlank then pure { result := .error .emptySource }
  else
    let reading := Reading.ofSource source
    if reading.schema.isUnreadable then pure { notes := reading.notes, result := .error .unreadable }
    else do
      let hooks := config.hooks given
      let schema ← Hook.runPre hooks reading.schema
      let result ← (config.snippets engine hooks schema).run
      return { notes := reading.notes, builtFor := some schema.typeName,
               result := result.mapError .template }

end Config

end Run

end GroqSnippets
