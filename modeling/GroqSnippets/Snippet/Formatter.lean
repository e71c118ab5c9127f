/-
Formatters.

The program fills its templates in the language of `Template`.  A formatter is a configuration with
the one template directory that goes with it, held in memory, so what becomes of a query is known
without looking anywhere.
-/
import GroqSnippets.Snippet.Basic
import GroqSnippets.Snippet.Template

namespace GroqSnippets

/-! ### Directories held in memory

Such a directory may be read by anyone.  What may still go wrong is that its path is too long to
look for, or that the template in it is no text.
-/

/-- What is found in the place of the packaged template. -/
inductive FoundTemplate where
  | nothing
  | text (content : Text)
  /-- Something that is no text. -/
  | undecodable
  /-- The directory cannot be looked for, because its path is too long. -/
  | longPath
deriving DecidableEq, Repr

/-- What is found where there are no files at all. -/
def FoundTemplate.withoutFiles (config : Config) : FoundTemplate :=
  match config.templateDir with
  | none | some [] => nothing
  | some directory => if Path.isUnusable (Path.tidy directory) then longPath else nothing

namespace TemplateEngine

variable {m : Type → Type} [Monad m]

/-- The engine that finds one thing in every directory. -/
def ofFound (found : FoundTemplate) : TemplateEngine m TemplateError where
  isDirectory _ := if found == .longPath then throw .longPath else return true
  find? _ :=
    match found with
    | .nothing => return none
    | .text content => return some content
    | .undecodable => throw .undecodable
    | .longPath => throw .longPath
  fill template values := ExceptT.mk (pure (Template.fill template values.value?))

/-- The engine where there are no files at all. -/
def withoutFiles (config : Config) : TemplateEngine m TemplateError :=
  ofFound (.withoutFiles config)

end TemplateEngine

/-! ### Formatters -/

/-- A configuration, and what its directory has in the place of the packaged template. -/
structure Formatter where
  config : Config := {}
  found : FoundTemplate := .nothing
deriving DecidableEq, Repr

namespace Formatter

/-- The formatter for a configuration and what is found in its directory. -/
def ofConfig (config : Config) (found : FoundTemplate) : Except TemplateError Formatter :=
  if found == .longPath then .error .longPath else .ok { config, found }

def formatAs (formatter : Formatter) (format query typeName kind : Text) : Except TemplateError Text :=
  let engine : TemplateEngine Id TemplateError := .ofFound formatter.found
  (engine.formatAs formatter.config (some ['.']) format query typeName kind).run

/-- A query as a snippet in the configured format. -/
def format (formatter : Formatter) (query typeName kind : Text) : Except TemplateError Text :=
  formatter.formatAs formatter.config.outputFormat query typeName kind

example :
    (({} : Formatter).formatAs "ts".toList " q ".toList "post".toList "List".toList).toOption
      = some "import { defineQuery } from 'sanity';

export const getPostListQuery = defineQuery(`
q
`);".toList := by
  decide +kernel

end Formatter

end GroqSnippets
