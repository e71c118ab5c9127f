/-
Two ways to keep the first of each name.

Reading an array and projecting one both pass over nested fields whose name came before, and say so.
They are separate loops: the reader remembers the names that it has met, and the projection looks at
the nested fields that it has kept.  As the table of an array tells, these have the same names, so
both keep the same nested fields and say the same, whatever list they are given.

An array that one of them has been over has nothing for the other one to say.  So a schema may be
rid of its repeats before its queries are built, and its warnings told before the first query; the
queries and their warnings come out the same.
-/
import GroqSnippets.Proofs.Query.Pruning
import GroqSnippets.Proofs.Session.Reuse

namespace GroqSnippets

/-- A draft keeps the first item of each name of a list, and warns about the others. -/
theorem Draft.run_keepFirsts_nil (array : Text) (nested : List NestedField) (draft : Draft) :
    (keepFirsts array [] nested).run draft
      = (firstsOf nested,
          draft.warn ((repeatsOf nested).map fun item => duplicateWarning item.name array)) := by
  obtain ⟨repeats, hrepeats, hrun⟩ := run_keepFirsts array {} nested draft
  rw [← NestedTable.ofList, NestedTable.ofList_eq] at hrepeats hrun
  obtain rfl : (repeatsOf nested).map (·.name) = repeats := hrepeats
  rw [List.map_map] at hrun
  exact hrun

/-! ### A schema without repeats

A reader takes the first of each name while it reads, and a draft does so while it builds.  If the
reader has been there before, the draft finds nothing to leave out, and the warnings it would have
added are among those of the schema already.
-/

def Field.readerWarnings (field : Field) : List Text :=
  (repeatsOf (field.nestedFields.getD [])).map fun item => duplicateWarning item.name field.name

/-- An array with the nested fields that a reader keeps. -/
def Field.withoutRepeats (field : Field) : Field :=
  { field with nestedFields := field.nestedFields.map firstsOf }

/-- A schema with the nested fields that a reader keeps of each array, and with what it has to say
about the others. -/
def Schema.withoutRepeats (schema : Schema) : Schema :=
  { schema with
    fields := schema.fields.map fun field => if field.isArray then field.withoutRepeats else field
    warnings := schema.warnings ++ schema.arrayFields.flatMap Field.readerWarnings }

theorem Field.getD_nestedFields_withoutRepeats (field : Field) :
    field.withoutRepeats.nestedFields.getD [] = firstsOf (field.nestedFields.getD []) := by
  rw [withoutRepeats]
  cases field.nestedFields <;> rfl

/-- An array without repeats has the table of the whole one, with nothing that is repeated. -/
theorem Field.table_withoutRepeats (field : Field) :
    NestedTable.ofList (field.withoutRepeats.nestedFields.getD [])
      = { firsts := (NestedTable.ofList (field.nestedFields.getD [])).firsts } := by
  have hnodup := nodup_firstsOf (field.nestedFields.getD [])
  rw [getD_nestedFields_withoutRepeats, NestedTable.ofList_eq, NestedTable.ofList_eq,
    firstsOf_of_nodup hnodup, repeatsOf_of_nodup hnodup, List.map_nil]

theorem ArrayProjection.ofField_withoutRepeats (field : Field) :
    ArrayProjection.ofField field.withoutRepeats = ArrayProjection.ofField field := by
  rw [ofField_eq, ofField_eq, Field.table_withoutRepeats]
  rfl

theorem Field.repeatWarnings_withoutRepeats (field : Field) :
    field.withoutRepeats.repeatWarnings = [] := by
  rw [repeatWarnings, table_withoutRepeats]
  rfl

namespace Schema

variable (schema : Schema)

theorem arrayFields_withoutRepeats :
    schema.withoutRepeats.arrayFields = schema.arrayFields.map Field.withoutRepeats := by
  refine (arrayFields_map schema ?_).trans (List.map_congr_left ?_)
  · intro field
    split <;> rfl
  · intro field hfield
    exact if_pos (List.mem_filter.mp hfield).2

theorem projection_withoutRepeats : schema.withoutRepeats.projection = schema.projection := by
  refine projection_map schema ?_ ?_ ?_
  · intro field
    split <;> rfl
  · intro field
    split <;> rfl
  · intro field
    split
    · exact ArrayProjection.ofField_withoutRepeats field
    · rfl

theorem hasSlug_withoutRepeats : schema.withoutRepeats.hasSlug = schema.hasSlug := by
  refine hasSlug_map schema ?_
  intro field
  split <;> rfl

/-- The warnings of a schema without repeats are those of the queries for the whole one. -/
theorem warnings_withoutRepeats : schema.withoutRepeats.warnings = schema.queries.warnings := by
  show schema.warnings ++ schema.arrayFields.flatMap Field.readerWarnings
    = schema.warnings ++ schema.arrayFields.flatMap Field.repeatWarnings
  rw [funext Field.repeatWarnings_eq]
  rfl

theorem queries_withoutRepeats : schema.withoutRepeats.queries = schema.queries := by
  have hsilent : (schema.arrayFields.map Field.withoutRepeats).flatMap Field.repeatWarnings = [] := by
    simp [Field.repeatWarnings_withoutRepeats]
  rw [queries, arrayFields_withoutRepeats, hsilent, List.append_nil, warnings_withoutRepeats,
    hasSlug_withoutRepeats]
  simp only [query, projection_withoutRepeats]
  rfl

end Schema

/-- **Reading and projecting keep the first of each name.**  Given any nested fields of an array, a
reader and a draft keep the same ones, the first of each name in their order, and add the same
warnings in the same order, one for each nested field that they pass over.  So a schema without
repeats, with the warnings about them behind its own, has the queries of the whole schema and the
same warnings with them. -/
theorem repeats_agree :
    (∀ (array : Text) (nested : List NestedField) (reader : Reader) (draft : Draft),
      let messages := (repeatsOf nested).map fun item => duplicateWarning item.name array
      (Reader.keepFirsts array [] nested).run reader = (firstsOf nested, reader.warn messages)
      ∧ (Draft.keepFirsts array [] nested).run draft = (firstsOf nested, draft.warn messages)
      ∧ ((firstsOf nested).map (·.name)).Nodup
      ∧ (firstsOf nested ++ repeatsOf nested).Perm nested)
    ∧ ∀ schema : Schema,
      schema.withoutRepeats.queries = schema.queries
      ∧ (Draft.ofSchema schema.withoutRepeats).build.1 = (Draft.ofSchema schema).build.1
      ∧ schema.withoutRepeats.warnings = schema.queries.warnings := by
  refine ⟨?_, ?_⟩
  · intro array nested reader draft
    refine ⟨?_, Draft.run_keepFirsts_nil array nested draft, nodup_firstsOf nested,
      firstsOf_append_repeatsOf_perm nested⟩
    rw [Reader.run_keepFirsts, keepFirstNames_eq]
  · intro schema
    refine ⟨schema.queries_withoutRepeats, ?_, schema.warnings_withoutRepeats⟩
    rw [Draft.build_eq, Draft.build_eq]
    exact schema.queries_withoutRepeats

end GroqSnippets
