/-
Schemas.

A schema describes one document type: its name and its fields in order of declaration.  A field
that is an array of inline objects lists the fields of those objects, and an image among them lists
its own attributes, so there are three levels and no more.

A schema also carries the warnings that arose while it was read.  They are remarks about the
source and no part of what is described, so two schemas describe the same when they agree in all
but their warnings.
-/
import GroqSnippets.Text.Basic

namespace GroqSnippets

/-- An attribute of an image, such as its alternative text. -/
structure SubField where
  name : Text
  type : Text
  validation : Bool := false
deriving DecidableEq, Repr

/-- A field of the objects in an array. -/
structure NestedField where
  name : Text
  type : Text
  validation : Bool := false
  /-- The attributes of an image, if any are declared. -/
  subFields : Option (List SubField) := none
deriving DecidableEq, Repr

/-- A field of a document type. -/
structure Field where
  name : Text
  type : Text
  title : Option Text := none
  validation : Bool := false
  /-- What an array holds, once that is known to be inline objects. -/
  of : Option Text := none
  /-- The fields of the objects in an array, if they are known. -/
  nestedFields : Option (List NestedField) := none
deriving DecidableEq, Repr

/-- The type name of a schema whose source does not tell its name. -/
def unknownTypeName : Text :=
  "unknown".toList

/-- The description of a document type. -/
structure Schema where
  typeName : Text := unknownTypeName
  fields : List Field := []
  warnings : List Text := []
deriving DecidableEq, Repr

def Field.isArray (field : Field) : Bool :=
  field.type == "array".toList

namespace Schema

/-- The schema of a source that cannot be read: no name, no fields. -/
def empty : Schema :=
  {}

/-- Whether the type name or the fields are missing, so that there is nothing to query. -/
def isUnreadable (schema : Schema) : Bool :=
  schema.typeName == unknownTypeName || schema.fields.isEmpty

def field? (schema : Schema) (name : Text) : Option Field :=
  schema.fields.find? (·.name == name)

/-- Whether two schemas agree in all but their warnings. -/
def describesSame (a b : Schema) : Bool :=
  a.typeName == b.typeName && a.fields == b.fields

end Schema

/-- The remark that a nested field was left out because its array already has one of that name. -/
def duplicateWarning (nested array : Text) : Text :=
  "Duplicate nested field '".toList ++ nested ++ "' in '".toList ++ array ++ "' ignored".toList

end GroqSnippets
