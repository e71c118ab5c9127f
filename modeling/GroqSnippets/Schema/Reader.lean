/-
A reader that is used again.

A reader holds a source and the warnings of its last reading.  The source may be replaced between
readings, also by something that is no text; reading that fails inside, and its outcome is the
empty schema.

A reading forgets the warnings before it, and then adds its own to the same list, one after the
other, while it completes the fields in the order of the source.  The schema gets what the list
holds at the end.
-/
import GroqSnippets.Schema.Reading

namespace GroqSnippets

/-- A source to read, and what its last reading warned about. -/
structure Reader where
  /-- The source; nothing, if what was handed over is no text. -/
  source : Option Text
  warnings : List Text := []
deriving DecidableEq, Repr

namespace Reader

def reset (reader : Reader) : Reader :=
  { reader with warnings := [] }

def warn (reader : Reader) (warnings : List Text) : Reader :=
  { reader with warnings := reader.warnings ++ warnings }

/-- Keeps the first nested field of each name, and warns about the others.  `seen` holds the names
that are taken. -/
def keepFirsts (array : Text) (seen : List Text) : List NestedField → StateM Reader (List NestedField)
  | [] => return []
  | nested :: rest =>
    if seen.contains nested.name then do
      modify (·.warn [duplicateWarning nested.name array])
      keepFirsts array seen rest
    else do
      let kept ← keepFirsts array (nested.name :: seen) rest
      return nested :: kept

/-- Completes a field as the blocks of the source describe it. -/
def completeField (blocks : NamedBlocks) (field : Field) : StateM Reader Field :=
  if field.isArray then
    match (blocks.find? field.name).bind memberFields? with
    | none => return field
    | some body => do
      match ← keepFirsts field.name [] ((objects body).filterMap declaredNestedField?) with
      | [] => return field
      | kept => return { field with of := some "object".toList, nestedFields := some kept }
  else return field

def readText (source : Text) : StateM Reader Schema := do
  let blocks := fieldPattern.blocks source
  let fields ← (blocks.filterMap declaredField?).mapM (completeField (.ofBlocks blocks))
  let reader ← get
  return { typeName := (namePattern.firstValue? source).getD unknownTypeName
           fields
           warnings := reader.warnings }

/-- Reads the source that the reader holds, without the warnings that it holds. -/
def readAfresh : StateM Reader Schema := do
  modify reset
  match (← get).source with
  | some source => readText source
  | none => return Schema.empty

/-- Reads the source: the schema, and the reader with the warnings of this reading. -/
def read (reader : Reader) : Schema × Reader :=
  readAfresh.run reader

end Reader

end GroqSnippets
