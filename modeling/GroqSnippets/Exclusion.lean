/-
Leaving fields out of a schema.

A field is left out when its path matches one of a list of globs.  The path of a top-level field is
its name, that of a nested field has the name of its array and a dot before it, and that of an
attribute has the path of its image before it.

An array that loses its last nested field becomes an array of which nothing is known, and an image
that loses its last attribute becomes a plain image.  What had nothing below it to begin with is
left as it is, an empty list included.  The type name and the warnings stay.
-/
import GroqSnippets.Glob
import GroqSnippets.Schema.Basic

namespace GroqSnippets

/-- Whether a path matches one of the globs. -/
def excludes (patterns : List Text) (path : Text) : Bool :=
  patterns.any fun pattern => (Glob.ofText pattern).accepts path

def childPath (parent name : Text) : Text :=
  parent ++ '.' :: name

/-- The list itself, or nothing if it is empty. -/
def nonEmpty? {α : Type} : List α → Option (List α)
  | [] => none
  | items => some items

/-- An image without the attributes whose paths match. -/
def NestedField.exclude (patterns : List Text) (parent : Text) (nested : NestedField) : NestedField :=
  match nested.subFields with
  | none | some [] => nested
  | some subs =>
    let path := childPath parent nested.name
    { nested with subFields := nonEmpty? (subs.filter fun sub => !excludes patterns (childPath path sub.name)) }

/-- An array without the nested fields and attributes whose paths match. -/
def Field.exclude (patterns : List Text) (field : Field) : Field :=
  match field.nestedFields with
  | none | some [] => field
  | some nested =>
    let kept := nested.filter fun nested => !excludes patterns (childPath field.name nested.name)
    match nonEmpty? (kept.map (NestedField.exclude patterns field.name)) with
    | none => { field with of := none, nestedFields := none }
    | some kept => { field with nestedFields := some kept }

/-- A schema without the fields whose paths match. -/
def Schema.exclude (patterns : List Text) (schema : Schema) : Schema :=
  { schema with
    fields := (schema.fields.filter fun field => !excludes patterns field.name).map (Field.exclude patterns) }

end GroqSnippets
