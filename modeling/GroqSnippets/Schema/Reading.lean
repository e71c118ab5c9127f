/-
Reading a schema from source.

The type name is the first `name` in the source, wherever it stands.  Each `defineField` block is a
field, named and typed by the keys directly inside it; a block without both is passed over.  The
type that belongs to a name is the first one after it, and one before it only when none follows.

An array field is looked at again.  When its `of` list holds an inline object with a list of
fields, those become its nested fields, the first of each name, and an image among them brings the
attributes from its own list.  The block that is looked at is the first one in the source that
declares the name of the array.

Reading never fails.  What it notices on the way is kept as notes, in the order of the source; the
notes about left-out duplicates are the warnings of the schema.
-/
import GroqSnippets.Schema.Basic
import GroqSnippets.Source.Window

namespace GroqSnippets

/-! ### What is looked for

A key counts wherever its text stands, so a search that must not look into nested lists is handed
the text directly in a block.  The searches for marks pass over literals and comments by themselves.
-/

def namePattern : Pattern := .key "name".toList

def typePattern : Pattern := .key "type".toList

def titlePattern : Pattern := .key "title".toList

/-- The mark of an inline object. -/
def objectPattern : Pattern := .keyValue "type".toList "object".toList

/-- The start of a field declaration. -/
def fieldPattern : Pattern := .objectCall "defineField".toList

def ofPattern : Pattern := .keyList "of".toList

def fieldsPattern : Pattern := .keyList "fields".toList

def mentionsValidation (block : Text) : Bool :=
  Text.occursIn "validation:".toList block

/-- The value of the first occurrence of a key in a text, whatever it stands in. -/
def Pattern.firstValue? (pattern : Pattern) (text : Text) : Option Text :=
  (pattern.first? (Cursor.ofText text)).bind (·.value)

/-- The first name in a text and the type that belongs to it: the first type behind the name, or
else the first type at all. -/
def nameAndType? (text : Text) : Option (Text × Text) := do
  let name ← namePattern.first? (Cursor.ofText text)
  let type ← (typePattern.first? name.stop).or (typePattern.first? (Cursor.ofText text))
  return (← name.value, ← type.value)

/-! ### Declarations

Each of these reads one block or one object.  Its name and type are looked for in the text that
stands directly in it; a rule counts anywhere in it, also in what is nested.
-/

/-- The attribute that an object declares. -/
def declaredSubField? (item : Text) : Option SubField := do
  let (name, type) ← nameAndType? (directText item)
  return { name, type, validation := mentionsValidation item }

def declaredSubFields? (image : Text) : Option (List SubField) := do
  let body ← fieldsPattern.section? image
  match (objects body).filterMap declaredSubField? with
  | [] => none
  | subs => some subs

/-- The nested field that an object declares. -/
def declaredNestedField? (item : Text) : Option NestedField := do
  let (name, type) ← nameAndType? (directText item)
  let subFields := if type == "image".toList then declaredSubFields? item else none
  return { name, type, validation := mentionsValidation item, subFields }

/-- The field that a block declares, before an array is looked at again. -/
def declaredField? (block : Text) : Option Field := do
  let level := directText block
  let (name, type) ← nameAndType? level
  return { name, type, title := titlePattern.firstValue? level, validation := mentionsValidation block }

/-! ### Arrays

An array is read twice.  The second look goes to the first block of the array's name, which need not
be the block that declared it, and it replaces nothing unless some object there has a name and a
type.
-/

/-- What reading notices. -/
inductive Note where
  | foundField (name type : Text)
  /-- A nested field repeats a name of its array and is left out. -/
  | duplicateNested (nested array : Text)
  /-- An array of inline objects declares no field that can be recognised. -/
  | noObjectFields (array : Text)
deriving DecidableEq, Repr

def Note.warning? : Note → Option Text
  | .duplicateNested nested array => some (duplicateWarning nested array)
  | _ => none

/-- The nested fields that are kept, the first of each name, and those that are left out.  `seen`
holds the names that are taken. -/
def keepFirstNames (seen : List Text) : List NestedField → List NestedField × List NestedField
  | [] => ([], [])
  | nested :: rest =>
    if seen.contains nested.name then
      let (kept, dropped) := keepFirstNames seen rest
      (kept, nested :: dropped)
    else
      let (kept, dropped) := keepFirstNames (nested.name :: seen) rest
      (nested :: kept, dropped)

def declaredName? (block : Text) : Option Text :=
  namePattern.firstValue? (directText block)

abbrev NamedBlocks := List (Option Text × Text)

def NamedBlocks.ofBlocks (blocks : List Text) : NamedBlocks :=
  blocks.map fun block => (declaredName? block, block)

def NamedBlocks.find? (blocks : NamedBlocks) (name : Text) : Option Text :=
  blocks.lookup (some name)

/-- The field list of the inline objects in an array, as text. -/
def memberFields? (block : Text) : Option Text := do
  let members ← ofPattern.section? block
  let _ ← objectPattern.firstInCode? (Cursor.ofText members)
  fieldsPattern.section? members

/-- An array field with the nested fields that a field list declares, and what was noticed. -/
def Field.withMembers (field : Field) (body : Text) : Field × List Note :=
  match keepFirstNames [] ((objects body).filterMap declaredNestedField?) with
  | ([], _) => (field, [.noObjectFields field.name])
  | (kept, dropped) =>
    ({ field with of := some "object".toList, nestedFields := some kept },
      dropped.map fun nested => .duplicateNested nested.name field.name)

/-- A field as the blocks of the source describe it, and what was noticed.  Only an array is looked
at again. -/
def Field.complete (blocks : NamedBlocks) (field : Field) : Field × List Note :=
  if field.isArray then
    match (blocks.find? field.name).bind memberFields? with
    | some body => field.withMembers body
    | none => (field, [])
  else (field, [])

/-! ### The whole source -/

structure Reading where
  schema : Schema
  notes : List Note
deriving DecidableEq, Repr

def readFields (source : Text) : List (Field × List Note) :=
  let blocks := fieldPattern.blocks source
  let named := NamedBlocks.ofBlocks blocks
  (blocks.filterMap declaredField?).map fun field =>
    let (complete, notes) := field.complete named
    (complete, .foundField field.name field.type :: notes)

namespace Reading

/-- The reading of a source. -/
def ofSource (source : Text) : Reading :=
  let fields := readFields source
  let notes := fields.flatMap (·.2)
  { schema :=
      { typeName := (namePattern.firstValue? source).getD unknownTypeName
        fields := fields.map (·.1)
        warnings := notes.filterMap Note.warning? }
    notes }

end Reading

/-- The schema that a source describes. -/
def Schema.ofSource (source : Text) : Schema :=
  (Reading.ofSource source).schema

end GroqSnippets
