/-
Snippets.

A snippet is a query ready to be pasted: for TypeScript and JavaScript an import of the query
helper and an exported constant, for any other format the query itself.  Either way the query is
trimmed first.

The wrapping is done by a template.  A file of the right name in the configured directory takes the
place of the packaged one.  It is looked for whenever a query is wrapped, so what is wrong with it
matters only then; the directory itself is looked for once, before anything is formatted.

Neither the file system nor the language of templates is fixed here.  Both are an engine, which is
given from outside, may have effects and may fail at any of its tasks.
-/
import GroqSnippets.Path
import GroqSnippets.Query.Basic
import GroqSnippets.Snippet.Config
import GroqSnippets.Text.Blank
import GroqSnippets.Text.Upper

namespace GroqSnippets

/-- The name under which a query is exported. -/
def exportName (typeName kind : Text) : Text :=
  "get".toList ++ capitalize typeName ++ kind ++ "Query".toList

/-- Whether a format wraps the query; every other format leaves it bare. -/
def isWrapping (format : Text) : Bool :=
  format == "ts".toList || format == "js".toList

/-! ### Templates

The packaged template is a text like any other one, and the engine fills it as it fills any other.
What a template may ask for is the same whatever template it is.
-/

def templateFile : Text :=
  "define_query.j2".toList

/-- The packaged template: it imports the helper, and exports what the helper makes of the query. -/
def packagedTemplate : Text :=
  "import { {{ helper_name }} } from '{{ helper_module }}';

export const {{ query_name }} = {{ helper_name }}(`
{{ query }}
`);
".toList

structure SnippetValues where
  query : Text
  queryName : Text
  helperName : Text
  helperModule : Text
  outputFormat : Text
deriving DecidableEq, Repr

def SnippetValues.value? (values : SnippetValues) (name : Text) : Option Text :=
  [("query".toList, values.query), ("query_name".toList, values.queryName),
   ("helper_name".toList, values.helperName), ("helper_module".toList, values.helperModule),
   ("output_format".toList, values.outputFormat)].lookup name

/-- What formatting relies on: a place where templates are looked for, and a language that they are
written in.  It acts in a monad, so its answers need not be the same twice, and it fails with errors
of its own. -/
structure TemplateEngine (m : Type → Type) (ε : Type) where
  isDirectory (path : Text) : ExceptT ε m Bool
  /-- The text of the template file in a directory, if there is one. -/
  find? (directory : Text) : ExceptT ε m (Option Text)
  /-- The text that a template becomes. -/
  fill (template : Text) (values : SnippetValues) : ExceptT ε m Text

/-! ### Formatting

The engine is asked for the file first and fills whatever text that gives.  Nothing is asked of it
for a bare format, so there it cannot fail.
-/

namespace TemplateEngine

variable {m : Type → Type} [Monad m] {ε : Type} (engine : TemplateEngine m ε)

/-- The directory that a configuration has templates looked for in.  A path that leads to no
directory counts as none. -/
def directory? (config : Config) : ExceptT ε m (Option Text) :=
  match config.templateDir with
  | none | some [] => return none
  | some path => do
    let directory := Path.tidy path
    return if ← engine.isDirectory directory then some directory else none

/-- The template to use. -/
def template : (directory : Option Text) → ExceptT ε m Text
  | none => return packagedTemplate
  | some directory => do return (← engine.find? directory).getD packagedTemplate

/-- A query as a snippet in a format. -/
def formatAs (config : Config) (directory : Option Text) (format query typeName kind : Text) :
    ExceptT ε m Text :=
  if isWrapping format then do
    engine.fill (← engine.template directory)
      { query := query.trim, queryName := exportName typeName kind, helperName := config.helperName
        helperModule := config.helperModule, outputFormat := format }
  else return query.trim

/-- A query as a snippet in the configured format. -/
def format (config : Config) (directory : Option Text) (query typeName kind : Text) : ExceptT ε m Text :=
  engine.formatAs config directory config.outputFormat query typeName kind

end TemplateEngine

end GroqSnippets
