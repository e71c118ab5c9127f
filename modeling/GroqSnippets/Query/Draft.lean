/-
Queries that are drafted again and again.

A draft keeps a schema and the warnings so far: those of the schema before the first build, and
those of the queries after each one.  Every build starts over from the schema's own warnings, and
adds to them while it projects the arrays, one for each nested field whose name its array already
has.
-/
import GroqSnippets.Query.Basic

namespace GroqSnippets

/-- A schema whose queries are to be built, and the warnings so far. -/
structure Draft where
  schema : Schema
  warnings : List Text
deriving DecidableEq, Repr

namespace Draft

def ofSchema (schema : Schema) : Draft :=
  ⟨schema, schema.warnings⟩

def reset (draft : Draft) : Draft :=
  { draft with warnings := draft.schema.warnings }

def warn (draft : Draft) (warnings : List Text) : Draft :=
  { draft with warnings := draft.warnings ++ warnings }

/-- Keeps the first nested field of each name, and warns about the others.  `firsts` holds the nested
fields that are kept so far. -/
def keepFirsts (array : Text) (firsts : List NestedField) :
    List NestedField → StateM Draft (List NestedField)
  | [] => return firsts
  | nested :: rest =>
    if firsts.any (·.name == nested.name) then do
      modify (·.warn [duplicateWarning nested.name array])
      keepFirsts array firsts rest
    else keepFirsts array (firsts ++ [nested]) rest

def projectArray (field : Field) : StateM Draft ArrayProjection :=
  match field.nestedFields.getD [] with
  | [] => return ⟨field.name, none⟩
  | nested => do
    let firsts ← keepFirsts field.name [] nested
    return ⟨field.name, some (firsts.map Entry.ofNested)⟩

def project : StateM Draft Projection := do
  let schema := (← get).schema
  let arrays ← schema.arrayFields.mapM projectArray
  return { typeName := schema.typeName, scalars := schema.scalarFields.map (·.name), arrays }

/-- Builds the queries from the warnings of the schema on. -/
def buildAfresh : StateM Draft Queries := do
  modify reset
  let projection ← project
  let draft ← get
  return { single := projection.query QueryKind.single.selector
           list := projection.query QueryKind.list.selector
           bySlug := if draft.schema.hasSlug then some (projection.query QueryKind.bySlug.selector) else none
           warnings := draft.warnings }

/-- Builds the queries: what was built, and the draft with the warnings of this build. -/
def build (draft : Draft) : Queries × Draft :=
  buildAfresh.run draft

end Draft

end GroqSnippets
