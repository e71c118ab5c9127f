/-
What a query projects.

A projection is a schema seen by its queries: the type name, the fields that are no arrays, and the
arrays.  An array whose nested fields are known is projected with one entry per name, the first of
each; any other array is projected whole.  An image contributes its address and its attributes
under names of their own, every other nested field its bare name.

The separation of arrays from other fields, and the choice of the first entry of each name, are all
the decisions there are; writing a projection down decides nothing more.
-/
import GroqSnippets.Schema.Basic

namespace GroqSnippets

/-- What the objects in an array contribute. -/
inductive Entry where
  | plain (name : Text)
  /-- An image: its address, and the attributes with the given names. -/
  | image (name : Text) (subFields : List Text)
deriving DecidableEq, Repr

/-- What an array contributes. -/
structure ArrayProjection where
  name : Text
  /-- The entries of its objects; nothing, if it is projected whole. -/
  entries : Option (List Entry)
deriving DecidableEq, Repr

/-- What a query for a document type projects. -/
structure Projection where
  typeName : Text
  scalars : List Text
  arrays : List ArrayProjection
deriving DecidableEq, Repr

def Entry.ofNested (nested : NestedField) : Entry :=
  if nested.type == "image".toList then .image nested.name ((nested.subFields.getD []).map (·.name))
  else .plain nested.name

/-! ### One entry per name

Names are compared as they are written, and the attributes of an image are not compared with
anything, so the keys of a query may still clash.
-/

/-- The nested fields whose names are taken, in order of first occurrence, and the names that came
again. -/
structure NestedTable where
  firsts : List NestedField := []
  repeats : List Text := []
deriving DecidableEq, Repr

namespace NestedTable

/-- The table with one more nested field, which counts only if its name is not taken. -/
def insert (table : NestedTable) (nested : NestedField) : NestedTable :=
  if table.firsts.any (·.name == nested.name) then { table with repeats := table.repeats ++ [nested.name] }
  else { table with firsts := table.firsts ++ [nested] }

def ofList (nested : List NestedField) : NestedTable :=
  nested.foldl insert {}

end NestedTable

def ArrayProjection.ofField (field : Field) : ArrayProjection :=
  match field.nestedFields.getD [] with
  | [] => ⟨field.name, none⟩
  | nested => ⟨field.name, some ((NestedTable.ofList nested).firsts.map Entry.ofNested)⟩

/-- The remarks about nested fields of an array that are projected only once. -/
def Field.repeatWarnings (field : Field) : List Text :=
  (NestedTable.ofList (field.nestedFields.getD [])).repeats.map (duplicateWarning · field.name)

namespace Schema

def arrayFields (schema : Schema) : List Field :=
  schema.fields.filter (·.isArray)

def scalarFields (schema : Schema) : List Field :=
  schema.fields.filter (!·.isArray)

def projection (schema : Schema) : Projection :=
  { typeName := schema.typeName
    scalars := schema.scalarFields.map (·.name)
    arrays := schema.arrayFields.map ArrayProjection.ofField }

end Schema

end GroqSnippets
