/-
Leaving fields out before building is pruning what was built.

Fields are left out of the schema, before anything is decided about what a query projects.  The
result is what would have been projected anyway, without the entries whose paths match: `prune` is
that second way, and it works on projections alone.

The two ways meet because every decision on the way looks at names only.  Whether a nested field is
left out depends on its path, and nested fields of one array that share a name share their path, so
either all of them are left out or the first one still is the first.  Leaving attributes out changes
no name.  And an array that loses everything below it is projected the way an array is of which
nothing is known.
-/
import GroqSnippets.Proofs.Exclusion.Levels
import GroqSnippets.Proofs.Query.Table
import GroqSnippets.Query.Basic

namespace GroqSnippets

/-! ### Pruning a projection -/

def Entry.name : Entry → Text
  | .plain name | .image name _ => name

/-- An entry without the attributes whose paths match. -/
def Entry.prune (patterns : List Text) (parent : Text) : Entry → Entry
  | .plain name => .plain name
  | .image name subFields =>
    .image name (subFields.filter fun sub => !excludes patterns (childPath (childPath parent name) sub))

/-- An array without the entries and attributes whose paths match.  Without any entry left it is
projected whole. -/
def ArrayProjection.prune (patterns : List Text) (array : ArrayProjection) : ArrayProjection :=
  match array.entries with
  | none => array
  | some entries =>
    let kept := entries.filter fun entry => !excludes patterns (childPath array.name entry.name)
    { array with entries := nonEmpty? (kept.map (Entry.prune patterns array.name)) }

/-- A projection without the fields, entries and attributes whose paths match. -/
def Projection.prune (patterns : List Text) (projection : Projection) : Projection :=
  { projection with
    scalars := projection.scalars.filter fun name => !excludes patterns name
    arrays := (projection.arrays.filter fun array => !excludes patterns array.name).map
      (ArrayProjection.prune patterns) }

/-! ### The table of nested fields

All nested fields of a name go together or stay together, since only their names are looked at.  So
it makes no difference whether the first of each name is taken before or after some are left out.
-/

namespace NestedTable

/-- The table without the names that `keeps` rejects. -/
def restrict (keeps : Text → Bool) (table : NestedTable) : NestedTable :=
  { firsts := table.firsts.filter fun nested => keeps nested.name
    repeats := table.repeats.filter keeps }

def mapFirsts (change : NestedField → NestedField) (table : NestedTable) : NestedTable :=
  { table with firsts := table.firsts.map change }

/-- A nested field whose name is kept meets the same names in the restricted table. -/
theorem restrict_insert (keeps : Text → Bool) (table : NestedTable) (nested : NestedField) :
    (table.insert nested).restrict keeps
      = if keeps nested.name then (table.restrict keeps).insert nested else table.restrict keeps := by
  have htaken (hkeep : keeps nested.name = true) :
      (table.restrict keeps).firsts.any (·.name == nested.name)
        = table.firsts.any (·.name == nested.name) := by
    rw [restrict, List.any_filter]
    congr 1
    funext first
    by_cases hname : first.name = nested.name
    · simp [hname, hkeep]
    · simp [hname]
  by_cases hkeep : keeps nested.name = true
  · rw [if_pos hkeep, insert, insert, htaken hkeep]
    by_cases hany : table.firsts.any (·.name == nested.name) = true
    · simp [hany, restrict, hkeep]
    · simp [hany, restrict, hkeep]
  · rw [if_neg hkeep, insert]
    by_cases hany : table.firsts.any (·.name == nested.name) = true
    · simp [hany, restrict, hkeep]
    · simp [hany, restrict, hkeep]

theorem mapFirsts_insert {change : NestedField → NestedField}
    (hname : ∀ nested, (change nested).name = nested.name) (table : NestedTable)
    (nested : NestedField) :
    (table.insert nested).mapFirsts change = (table.mapFirsts change).insert (change nested) := by
  have htaken : (table.mapFirsts change).firsts.any (·.name == (change nested).name)
      = table.firsts.any (·.name == nested.name) := by
    simp [mapFirsts, hname, List.any_map, Function.comp_def]
  rw [insert, insert, htaken]
  by_cases hany : table.firsts.any (·.name == nested.name) = true
  · simp [hany, mapFirsts, hname]
  · simp [hany, mapFirsts]

/-- Leaving nested fields out by name and then taking the first of each name is taking the first of
each name and then leaving names out. -/
theorem ofList_filter (keeps : Text → Bool) (nested : List NestedField) :
    ofList (nested.filter fun item => keeps item.name) = (ofList nested).restrict keeps := by
  have hfold : ∀ table : NestedTable,
      (nested.filter fun item => keeps item.name).foldl insert (table.restrict keeps)
        = (nested.foldl insert table).restrict keeps := by
    induction nested with
    | nil => intro table; rfl
    | cons item nested ih =>
      intro table
      rw [List.foldl_cons, ← ih, restrict_insert]
      by_cases hkeep : keeps item.name = true
      · simp [hkeep]
      · simp [hkeep]
  exact hfold {}

theorem ofList_map {change : NestedField → NestedField}
    (hname : ∀ nested, (change nested).name = nested.name) (nested : List NestedField) :
    ofList (nested.map change) = (ofList nested).mapFirsts change := by
  have hfold : ∀ table : NestedTable,
      (nested.map change).foldl insert (table.mapFirsts change)
        = (nested.foldl insert table).mapFirsts change := by
    induction nested with
    | nil => intro table; rfl
    | cons item nested ih =>
      intro table
      rw [List.map_cons, List.foldl_cons, List.foldl_cons, ← mapFirsts_insert hname, ih]
  exact hfold {}

end NestedTable

/-! ### From attributes to arrays

An array whose nested fields all go is projected whole afterwards, and so is an array that never had
any; which of the two it is can no longer be told from the query.
-/

section

variable (patterns : List Text)

theorem Entry.name_ofNested (nested : NestedField) :
    (Entry.ofNested nested).name = nested.name := by
  unfold Entry.ofNested
  split <;> rfl

theorem Entry.ofNested_exclude (parent : Text) (nested : NestedField) :
    Entry.ofNested (nested.exclude patterns parent)
      = (Entry.ofNested nested).prune patterns parent := by
  rw [Entry.ofNested, Entry.ofNested, NestedField.type_exclude, NestedField.name_exclude,
    NestedField.getD_subFields_exclude]
  by_cases himage : (nested.type == "image".toList) = true
  · rw [if_pos himage, if_pos himage, Entry.prune, List.filter_map]
    rfl
  · rw [if_neg himage, if_neg himage, Entry.prune]

/-- The table of the nested fields that are left. -/
theorem Field.table_exclude (field : Field) :
    NestedTable.ofList ((field.exclude patterns).nestedFields.getD [])
      = ((NestedTable.ofList (field.nestedFields.getD [])).restrict fun name =>
          !excludes patterns (childPath field.name name)).mapFirsts
        (NestedField.exclude patterns field.name) := by
  rw [Field.getD_nestedFields_exclude,
    NestedTable.ofList_map (NestedField.name_exclude patterns field.name),
    ← NestedTable.ofList_filter]

theorem ArrayProjection.ofField_exclude (field : Field) :
    ArrayProjection.ofField (field.exclude patterns)
      = (ArrayProjection.ofField field).prune patterns := by
  have hprune (name : Text) (entries : List Entry) :
      ArrayProjection.prune patterns ⟨name, nonEmpty? entries⟩
        = ⟨name, nonEmpty? ((entries.filter fun entry =>
            !excludes patterns (childPath name entry.name)).map (Entry.prune patterns name))⟩ := by
    cases entries <;> rfl
  rw [ArrayProjection.ofField_eq, ArrayProjection.ofField_eq, hprune, Field.table_exclude,
    Field.name_exclude, NestedTable.mapFirsts, NestedTable.restrict, List.map_map,
    List.filter_map, List.map_map]
  simp only [Function.comp_def, Entry.name_ofNested, Entry.ofNested_exclude]

/-- The remarks that are left about an array are those about the names that are left. -/
theorem Field.repeatWarnings_exclude (field : Field) :
    (field.exclude patterns).repeatWarnings
      = ((NestedTable.ofList (field.nestedFields.getD [])).repeats.filter fun name =>
          !excludes patterns (childPath field.name name)).map (duplicateWarning · field.name) := by
  rw [Field.repeatWarnings, Field.table_exclude, Field.name_exclude]
  rfl

end

/-! ### Whole schemas -/

namespace Schema

section

variable (patterns : List Text) (schema : Schema)

theorem arrayFields_exclude :
    (schema.exclude patterns).arrayFields
      = (schema.arrayFields.filter fun field => !excludes patterns field.name).map
        (Field.exclude patterns) := by
  simp only [arrayFields, exclude, List.filter_map, Function.comp_def, Field.isArray_exclude,
    List.filter_filter, Bool.and_comm]

theorem scalarFields_exclude :
    (schema.exclude patterns).scalarFields
      = (schema.scalarFields.filter fun field => !excludes patterns field.name).map
        (Field.exclude patterns) := by
  simp only [scalarFields, exclude, List.filter_map, Function.comp_def, Field.isArray_exclude,
    List.filter_filter, Bool.and_comm]

/-- What is projected after fields are left out is what is projected anyway, pruned. -/
theorem projection_exclude :
    (schema.exclude patterns).projection = schema.projection.prune patterns := by
  have hscalars : (schema.exclude patterns).scalarFields.map (·.name)
      = (schema.scalarFields.map (·.name)).filter fun name => !excludes patterns name := by
    simp only [scalarFields_exclude, List.map_map, List.filter_map, Function.comp_def,
      Field.name_exclude]
  have harrays : (schema.exclude patterns).arrayFields.map ArrayProjection.ofField
      = ((schema.arrayFields.map ArrayProjection.ofField).filter fun array =>
          !excludes patterns array.name).map (ArrayProjection.prune patterns) := by
    simp only [arrayFields_exclude, List.map_map, List.filter_map, Function.comp_def,
      ArrayProjection.ofField_exclude]
    simp only [ArrayProjection.ofField_eq]
  rw [projection, hscalars, harrays]
  rfl

/-- Documents have a slug still if they had one that is not left out. -/
theorem hasSlug_exclude :
    (schema.exclude patterns).hasSlug
      = (schema.hasSlug && !excludes patterns "slug".toList) := by
  rw [Bool.eq_iff_iff, Bool.and_eq_true, hasSlug_iff, hasSlug_iff]
  simp only [exclude, List.mem_map, List.mem_filter]
  constructor
  · rintro ⟨_, ⟨field, ⟨hmem, hkept⟩, rfl⟩, hname⟩
    rw [Field.name_exclude] at hname
    exact ⟨⟨field, hmem, hname⟩, hname ▸ hkept⟩
  · rintro ⟨⟨field, hmem, hname⟩, hkept⟩
    exact ⟨_, ⟨field, ⟨hmem, hname ▸ hkept⟩, rfl⟩, (Field.name_exclude patterns field).trans hname⟩

end

/-- **Leaving fields out and then building is building and then pruning.**  What the queries project
is what they project for the whole schema without the fields, entries and attributes whose paths
match.  There is a query by slug exactly when the schema has a field of that name and it is not left
out.  The type name and the schema's own warnings stay, and of the remarks about repeated entries
those about entries that are left. -/
theorem queries_exclude (patterns : List Text) (schema : Schema) :
    let pruned := schema.projection.prune patterns
    (schema.exclude patterns).projection = pruned
    ∧ (schema.exclude patterns).typeName = schema.typeName
    ∧ (schema.exclude patterns).warnings = schema.warnings
    ∧ (schema.exclude patterns).queries
      = { single := pruned.query QueryKind.single.selector
          list := pruned.query QueryKind.list.selector
          bySlug :=
            if (∃ field ∈ schema.fields, field.name = "slug".toList)
                ∧ excludes patterns "slug".toList = false then
              some (pruned.query QueryKind.bySlug.selector)
            else none
          warnings := schema.warnings
            ++ (schema.arrayFields.filter fun field => !excludes patterns field.name).flatMap
              fun field => ((NestedTable.ofList (field.nestedFields.getD [])).repeats.filter
                fun name => !excludes patterns (childPath field.name name)).map
                  (duplicateWarning · field.name) } := by
  have hprojection := projection_exclude patterns schema
  have hslug : (schema.exclude patterns).hasSlug = true
      ↔ (∃ field ∈ schema.fields, field.name = "slug".toList)
        ∧ excludes patterns "slug".toList = false := by
    rw [hasSlug_exclude, Bool.and_eq_true, hasSlug_iff, Bool.not_eq_true']
  have hwarnings : (schema.exclude patterns).arrayFields.flatMap Field.repeatWarnings
      = (schema.arrayFields.filter fun field => !excludes patterns field.name).flatMap
        fun field => (field.exclude patterns).repeatWarnings := by
    rw [arrayFields_exclude, List.flatMap_map]
  refine ⟨hprojection, rfl, rfl, ?_⟩
  rw [queries, hwarnings]
  simp only [query, hprojection, hslug, Field.repeatWarnings_exclude]
  rfl

/-- An array loses the one nested field that is repeated, an image an attribute, and the query by
slug goes with its field. -/
example :
    let gallery : Field :=
      { name := "g".toList, type := "array".toList
        nestedFields := some
          [{ name := "a".toList, type := "t".toList },
            { name := "i".toList, type := "image".toList
              subFields := some [⟨"x".toList, [], false⟩, ⟨"y".toList, [], false⟩] },
            { name := "a".toList, type := "image".toList }] }
    let schema : Schema :=
      { fields := [{ name := "slug".toList, type := "slug".toList }, gallery] }
    let left := schema.exclude ["slug".toList, "g.a".toList, "*.x".toList]
    left.projection.arrays = [⟨"g".toList, some [.image "i".toList ["y".toList]]⟩]
      ∧ left.queries.bySlug = none ∧ left.queries.warnings = [] := by
  decide +kernel

end Schema

end GroqSnippets
