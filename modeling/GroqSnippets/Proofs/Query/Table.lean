/-
The table of the nested fields of an array.

A projection puts nested fields into a table one after the other, and a name that is in the table
already is noted as one that came again.  What the table holds in the end is what a reader keeps of
the list: the nested fields in the table have the names that a reader would have met, so both decide
about the next one in the same way.

A table is all that a projection sees of an array's nested fields.  A change to the fields of a schema
that keeps their names and kinds, and what is projected of each array, changes no projection.
-/
import GroqSnippets.Proofs.Schema.Duplicates
import GroqSnippets.Query.Basic

namespace GroqSnippets

namespace NestedTable

/-- A table that goes through a list keeps and repeats what a reader with its names does. -/
theorem foldl_insert_eq {table : NestedTable} {seen : List Text}
    (hseen : ∀ name, seen.contains name = table.firsts.any (·.name == name))
    (nested : List NestedField) :
    nested.foldl insert table
      = { firsts := table.firsts ++ (keepFirstNames seen nested).1
          repeats := table.repeats ++ (keepFirstNames seen nested).2.map (·.name) } := by
  induction nested generalizing table seen with
  | nil => simp [keepFirstNames]
  | cons item nested ih =>
    rw [List.foldl_cons, keepFirstNames]
    by_cases htaken : seen.contains item.name = true
    · have hinsert : table.insert item = { table with repeats := table.repeats ++ [item.name] } :=
        if_pos ((hseen item.name).symm.trans htaken)
      have hsame : ∀ name, seen.contains name = (table.insert item).firsts.any (·.name == name) := by
        rw [hinsert]
        exact hseen
      rw [if_pos htaken, ih hsame, hinsert]
      simp
    · have hinsert : table.insert item = { table with firsts := table.firsts ++ [item] } :=
        if_neg fun hany => htaken ((hseen item.name).trans hany)
      have hmore : ∀ name, (item.name :: seen).contains name
          = (table.insert item).firsts.any (·.name == name) := by
        intro name
        rw [hinsert, List.contains_cons, hseen, List.any_append, List.any_cons, List.any_nil,
          Bool.or_false, Bool.or_comm, BEq.comm]
      rw [if_neg htaken, ih hmore, hinsert]
      simp

/-- The table of a list has the first item of each name, and the names of the others. -/
theorem ofList_eq (nested : List NestedField) :
    ofList nested = { firsts := firstsOf nested, repeats := (repeatsOf nested).map (·.name) } := by
  have hnone : ∀ name, ([] : List Text).contains name = ({} : NestedTable).firsts.any (·.name == name) :=
    fun _ => rfl
  rw [ofList, foldl_insert_eq hnone, keepFirstNames_eq]
  rfl

end NestedTable

/-- An array is projected whole when it has no nested fields, and entry by entry otherwise. -/
theorem ArrayProjection.ofField_eq (field : Field) :
    ArrayProjection.ofField field
      = ⟨field.name,
          nonEmpty? ((NestedTable.ofList (field.nestedFields.getD [])).firsts.map Entry.ofNested)⟩ := by
  unfold ArrayProjection.ofField
  cases hnested : field.nestedFields.getD [] with
  | nil => rfl
  | cons first rest =>
    cases hfirsts : (NestedTable.ofList (first :: rest)).firsts with
    | nil =>
      rw [NestedTable.ofList_eq] at hfirsts
      cases firstsOf_eq_nil_iff.mp hfirsts
    | cons kept more => simp [hfirsts, nonEmpty?]

/-- The remarks about an array are those about the nested fields that repeat a name. -/
theorem Field.repeatWarnings_eq (field : Field) :
    field.repeatWarnings
      = (repeatsOf (field.nestedFields.getD [])).map fun item =>
          duplicateWarning item.name field.name := by
  rw [repeatWarnings, NestedTable.ofList_eq, List.map_map]
  rfl

/-! ### Fields that are changed one by one -/

namespace Schema

variable {change : Field → Field} (schema : Schema)

theorem arrayFields_map (hkind : ∀ field, (change field).isArray = field.isArray) :
    { schema with fields := schema.fields.map change }.arrayFields
      = schema.arrayFields.map change := by
  simp only [arrayFields, List.filter_map, Function.comp_def, hkind]

theorem scalarFields_map (hkind : ∀ field, (change field).isArray = field.isArray) :
    { schema with fields := schema.fields.map change }.scalarFields
      = schema.scalarFields.map change := by
  simp only [scalarFields, List.filter_map, Function.comp_def, hkind]

theorem hasSlug_map (hname : ∀ field, (change field).name = field.name) :
    { schema with fields := schema.fields.map change }.hasSlug = schema.hasSlug := by
  rw [Bool.eq_iff_iff, hasSlug_iff, hasSlug_iff]
  simp [hname]

/-- A projection sees of a field its name, whether it is an array, and what it contributes as one. -/
theorem projection_map (hname : ∀ field, (change field).name = field.name)
    (hkind : ∀ field, (change field).isArray = field.isArray)
    (harray : ∀ field, ArrayProjection.ofField (change field) = ArrayProjection.ofField field) :
    { schema with fields := schema.fields.map change }.projection = schema.projection := by
  rw [projection, arrayFields_map schema hkind, scalarFields_map schema hkind, List.map_map, List.map_map]
  simp only [Function.comp_def, hname, harray]
  rfl

end Schema

end GroqSnippets
