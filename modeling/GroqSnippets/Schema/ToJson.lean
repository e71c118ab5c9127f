/-
Schemas as JSON.

A schema, and each field in it, becomes an object with its parts in a fixed order.  A title and the
kind of an array's items are left out when they are not known, while an empty title is kept.  The
lists of nested fields, of attributes and of warnings are left out when there is nothing in them,
so an empty list reads the same as a missing one.
-/
import GroqSnippets.Json
import GroqSnippets.Schema.Basic

namespace GroqSnippets

/-- An entry that is there only when its text is known. -/
def textEntry (key : Text) : Option Text → List (Text × Json)
  | none => []
  | some value => [(key, .text value)]

/-- An entry that is there only when its list has items. -/
def listEntry {α : Type} (key : Text) (encode : α → Json) : List α → List (Text × Json)
  | [] => []
  | items => [(key, .list (items.map encode))]

def SubField.toJson (sub : SubField) : Json :=
  .object
    [("name".toList, .text sub.name), ("type".toList, .text sub.type),
     ("validation".toList, .bool sub.validation)]

def NestedField.toJson (nested : NestedField) : Json :=
  .object
    ([("name".toList, .text nested.name), ("type".toList, .text nested.type),
      ("validation".toList, .bool nested.validation)]
      ++ listEntry "subFields".toList SubField.toJson (nested.subFields.getD []))

def Field.toJson (field : Field) : Json :=
  .object
    ([("name".toList, .text field.name), ("type".toList, .text field.type)]
      ++ textEntry "title".toList field.title
      ++ [("validation".toList, .bool field.validation)]
      ++ textEntry "of".toList field.of
      ++ listEntry "nestedFields".toList NestedField.toJson (field.nestedFields.getD []))

def Schema.toJson (schema : Schema) : Json :=
  .object
    ([("typeName".toList, .text schema.typeName),
      ("fields".toList, .list (schema.fields.map Field.toJson))]
      ++ listEntry "warnings".toList Json.text schema.warnings)

end GroqSnippets
