/-
Queries.

A query names the document type, selects one document, all of them or one by its slug, and then
lists what is projected, one entry to a line.  The three queries for a schema differ in the
selector only.  There is a query by slug only when the schema has a field of that name.

Arrays come after all other fields.  A separator stands between the two parts only when neither of
them is empty as text.
-/
import GroqSnippets.Query.Projection
import GroqSnippets.Text.Upper

namespace GroqSnippets

/-! ### Writing a projection -/

def fieldSeparator : Text :=
  ",\n    ".toList

def entrySeparator : Text :=
  ",\n        ".toList

/-- An entry under a name in quotes. -/
def aliased (name path : Text) : Text :=
  '"' :: name ++ "\": ".toList ++ path

/-- The lines of an entry.  The attributes of an image are named after the image, followed by their
own name with a capital. -/
def Entry.lines : Entry → List Text
  | .plain name => [name]
  | .image name subFields =>
    aliased name (name ++ ".asset->url".toList)
      :: subFields.map fun sub => aliased (name ++ capitalize sub) (name ++ '.' :: sub)

def ArrayProjection.render (array : ArrayProjection) : Text :=
  match array.entries with
  | none => array.name ++ "[]".toList
  | some entries =>
    array.name ++ ("[] ".toList ++ '{' :: "\n        ".toList)
      ++ entrySeparator.intercalate (entries.flatMap Entry.lines) ++ ("\n      ".toList ++ ['}'])

namespace Projection

def renderScalars (projection : Projection) : Text :=
  fieldSeparator.intercalate projection.scalars

def renderArrays (projection : Projection) : Text :=
  fieldSeparator.intercalate (projection.arrays.map ArrayProjection.render)

/-- What stands between the braces of a query. -/
def renderBody (projection : Projection) : Text :=
  let scalars := projection.renderScalars
  let arrays := projection.renderArrays
  scalars ++ (if scalars.isEmpty || arrays.isEmpty then [] else fieldSeparator) ++ arrays

/-- The query with a selector. -/
def query (projection : Projection) (selector : Text) : Text :=
  "*[_type == \"".toList ++ projection.typeName ++ "\"]".toList ++ selector
    ++ (" ".toList ++ '{' :: "\n    ".toList) ++ projection.renderBody ++ ("\n  ".toList ++ ['}'])

end Projection

/-! ### The queries for a schema

The three queries share one projection, so a schema is looked through once for all of them and what
is remarked about its arrays is remarked once.
-/

inductive QueryKind where
  | single
  | list
  | bySlug
deriving DecidableEq, Repr

namespace QueryKind

/-- The name of a kind, as it stands in exported names. -/
def name : QueryKind → Text
  | single => "Single".toList
  | list => "List".toList
  | bySlug => "BySlug".toList

def ofName? (name : Text) : Option QueryKind :=
  [single, list, bySlug].find? (·.name == name)

/-- The selector that a kind puts behind the type. -/
def selector : QueryKind → Text
  | single => "[0]".toList
  | list => []
  | bySlug => "[slug.current == $slug][0]".toList

end QueryKind

/-- The queries for a schema. -/
structure Queries where
  single : Text
  list : Text
  bySlug : Option Text := none
  /-- The warnings of the schema, and the remarks about fields that are projected only once. -/
  warnings : List Text := []
deriving DecidableEq, Repr

namespace Queries

def query? (queries : Queries) : QueryKind → Option Text
  | .single => some queries.single
  | .list => some queries.list
  | .bySlug => queries.bySlug

end Queries

namespace Schema

/-- The query of a kind. -/
def query (schema : Schema) (kind : QueryKind) : Text :=
  schema.projection.query kind.selector

def hasSlug (schema : Schema) : Bool :=
  (schema.field? "slug".toList).isSome

theorem hasSlug_iff (schema : Schema) :
    schema.hasSlug = true ↔ ∃ field ∈ schema.fields, field.name = "slug".toList := by
  simp [hasSlug, field?, List.find?_isSome]

def queries (schema : Schema) : Queries :=
  { single := schema.query .single
    list := schema.query .list
    bySlug := if schema.hasSlug then some (schema.query .bySlug) else none
    warnings := schema.warnings ++ schema.arrayFields.flatMap Field.repeatWarnings }

end Schema

end GroqSnippets
