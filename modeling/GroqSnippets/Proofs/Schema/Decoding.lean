/-
Schemas read back from JSON.

The JSON of a schema has an entry for everything that is known, so it can be decoded.  An entry that is
missing stands for nothing: a title and the kind of an array's items are left out only when there is
none.  A list of nested fields or attributes is left out when there is nothing in it, and that is the
one thing that JSON does not tell: whether there was an empty list or none at all.

A decoder looks its entries up by their keys, so it does not mind the order in which they stand.  Two
schemas with the same entries are therefore the same schema up to empty lists.  Schemas that are read
from a source have no empty lists, and leaving fields out makes none.  Queries do not tell an empty
list from a missing one either.
-/
import Mathlib.Data.List.Forall2
import GroqSnippets.Proofs.Query.Pruning
import GroqSnippets.Proofs.Schema.WellFormed
import GroqSnippets.Schema.ToJson

namespace GroqSnippets

/-! ### Looking into documents

An object is looked into by its keys, so the order of its entries does not enter, and of several
entries under one key the first one counts.
-/

namespace Json

variable {α : Type}

/-- What an object has under a key. -/
def entry? (key : Text) : Json → Option Json
  | object entries => entries.lookup key
  | _ => none

def bool? : Json → Option Bool
  | bool value => some value
  | _ => none

def text? : Json → Option Text
  | text value => some value
  | _ => none

/-- The list that a document is, item by item decoded. -/
def listOf? (decode? : Json → Option α) : Json → Option (List α)
  | list items => items.mapM decode?
  | _ => none

/-- What an object has under a key, decoded; the key has to be there. -/
def required? (key : Text) (decode? : Json → Option α) (document : Json) : Option α :=
  (document.entry? key).bind decode?

/-- What an object has under a key, decoded, or nothing if the key is not there. -/
def optional? (key : Text) (decode? : Json → Option α) (document : Json) : Option (Option α) :=
  (document.entry? key).mapM decode?

/-- Whether two documents are the same, whatever the order of the entries of their objects. -/
inductive Alike : Json → Json → Prop where
  | bool (value : Bool) : Alike (.bool value) (.bool value)
  | text (value : Text) : Alike (.text value) (.text value)
  | list {items others : List Json} (each : List.Forall₂ Alike items others) :
    Alike (.list items) (.list others)
  | object {entries others : List (Text × Json)}
    (each : ∀ key, Option.Rel Alike (entries.lookup key) (others.lookup key)) :
    Alike (.object entries) (.object others)

end Json

/-! ### Decoders -/

def SubField.ofJson? (document : Json) : Option SubField := do
  let name ← document.required? "name".toList Json.text?
  let type ← document.required? "type".toList Json.text?
  let validation ← document.required? "validation".toList Json.bool?
  return { name, type, validation }

/-- The nested field that a document describes. -/
def NestedField.ofJson? (document : Json) : Option NestedField := do
  let name ← document.required? "name".toList Json.text?
  let type ← document.required? "type".toList Json.text?
  let validation ← document.required? "validation".toList Json.bool?
  let subFields ← document.optional? "subFields".toList (Json.listOf? SubField.ofJson?)
  return { name, type, validation, subFields }

def Field.ofJson? (document : Json) : Option Field := do
  let name ← document.required? "name".toList Json.text?
  let type ← document.required? "type".toList Json.text?
  let title ← document.optional? "title".toList Json.text?
  let validation ← document.required? "validation".toList Json.bool?
  let of ← document.optional? "of".toList Json.text?
  let nestedFields ← document.optional? "nestedFields".toList (Json.listOf? NestedField.ofJson?)
  return { name, type, title, validation, of, nestedFields }

def Schema.ofJson? (document : Json) : Option Schema := do
  let typeName ← document.required? "typeName".toList Json.text?
  let fields ← document.required? "fields".toList (Json.listOf? Field.ofJson?)
  let warnings ← document.optional? "warnings".toList (Json.listOf? Json.text?)
  return { typeName, fields, warnings := warnings.getD [] }

/-! ### Empty lists

An empty list and a missing one are written alike.  What can be asked of a decoder is to give back
the schema up to that difference.
-/

def NestedField.withoutEmptyList (nested : NestedField) : NestedField :=
  { nested with subFields := nested.subFields.bind nonEmpty? }

def Field.withoutEmptyLists (field : Field) : Field :=
  { field with
    nestedFields := (field.nestedFields.bind nonEmpty?).map (List.map NestedField.withoutEmptyList) }

/-- The schema with nothing in the place of empty lists. -/
def Schema.withoutEmptyLists (schema : Schema) : Schema :=
  { schema with fields := schema.fields.map Field.withoutEmptyLists }

/-- Whether no list of nested fields or attributes is there but empty. -/
def Schema.HasNoEmptyList (schema : Schema) : Prop :=
  ∀ field ∈ schema.fields, field.nestedFields ≠ some []
    ∧ ∀ nested ∈ field.nestedFields.getD [], nested.subFields ≠ some []

/-! ### Entries by their keys -/

namespace Json

variable {α β : Type}

theorem lookup_cons_eq (key asked : Text) (value : Json) (entries : List (Text × Json)) :
    ((key, value) :: entries).lookup asked
      = if asked = key then some value else entries.lookup asked := by
  rw [List.lookup_cons]
  by_cases hkey : asked = key
  · rw [if_pos hkey, beq_iff_eq.mpr hkey]
  · rw [if_neg hkey, beq_eq_false_iff_ne.mpr hkey]

theorem lookup_textEntry (key asked : Text) (value : Option Text) :
    (textEntry key value).lookup asked = if asked = key then value.map Json.text else none := by
  cases value with
  | none => simp [textEntry]
  | some value => rw [textEntry, lookup_cons_eq, List.lookup_nil, Option.map_some]

theorem lookup_listEntry (key asked : Text) (encode : α → Json) (items : List α) :
    (listEntry key encode items).lookup asked
      = if asked = key then (nonEmpty? items).map fun items => .list (items.map encode) else none := by
  cases items with
  | nil => simp [listEntry, nonEmpty?]
  | cons item items => exact lookup_cons_eq key asked (.list ((item :: items).map encode)) []

/-- A list is decoded if each of its items is. -/
theorem listOf?_map {encode : α → Json} {decode? : Json → Option β} {change : α → β}
    (h : ∀ item, decode? (encode item) = some (change item)) (items : List α) :
    listOf? decode? (.list (items.map encode)) = some (items.map change) := by
  induction items with
  | nil => rfl
  | cons item items ih =>
    rw [listOf?] at ih
    simp [listOf?, h, ih]

/-- So is one that is there only if it has items. -/
theorem mapM_listOf? {encode : α → Json} {decode? : Json → Option β} {change : α → β}
    (h : ∀ item, decode? (encode item) = some (change item)) (items : Option (List α)) :
    ((items.map fun items => .list (items.map encode)).mapM (listOf? decode?))
      = some (items.map (List.map change)) := by
  cases items with
  | none => rfl
  | some items => simp [listOf?_map h]

theorem mapM_text? (value : Option Text) : (value.map Json.text).mapM text? = some value := by
  cases value <;> rfl

end Json

theorem nonEmpty?_getD {α : Type} (level : Option (List α)) :
    nonEmpty? (level.getD []) = level.bind nonEmpty? := by
  cases level <;> rfl

/-! ### Decoding what is encoded -/

theorem SubField.ofJson?_toJson (sub : SubField) : ofJson? sub.toJson = some (id sub) := rfl

/-- A nested field is decoded from its entries, one by one. -/
theorem NestedField.ofJson?_toJson (nested : NestedField) :
    ofJson? nested.toJson = some nested.withoutEmptyList := by
  simp +decide only [ofJson?, toJson, Json.required?, Json.optional?, Json.entry?,
    List.cons_append, List.nil_append, Json.lookup_cons_eq, Json.lookup_listEntry, if_true, if_false,
    nonEmpty?_getD, Json.text?, Json.bool?, Option.bind_eq_bind, Option.bind_some,
    Json.mapM_listOf? SubField.ofJson?_toJson, List.map_id_fun, Option.map_id_fun]
  rfl

theorem Field.ofJson?_toJson (field : Field) :
    ofJson? field.toJson = some field.withoutEmptyLists := by
  simp +decide only [ofJson?, toJson, Json.required?, Json.optional?, Json.entry?,
    List.append_assoc, List.cons_append, List.nil_append, List.lookup_append, Json.lookup_cons_eq,
    Json.lookup_textEntry, Json.lookup_listEntry, if_true, if_false, Option.or_none, Option.none_or,
    nonEmpty?_getD, Json.text?, Json.bool?, Option.bind_eq_bind, Option.bind_some, Json.mapM_text?,
    Json.mapM_listOf? NestedField.ofJson?_toJson]
  rfl

theorem Schema.ofJson?_toJson (schema : Schema) :
    ofJson? schema.toJson = some schema.withoutEmptyLists := by
  have htext (warning : Text) : Json.text? (.text warning) = some (id warning) := rfl
  simp +decide only [ofJson?, toJson, Json.required?, Json.optional?, Json.entry?,
    List.cons_append, List.nil_append, Json.lookup_cons_eq, Json.lookup_listEntry, if_true, if_false,
    Json.text?, Option.bind_eq_bind, Option.bind_some, Json.listOf?_map Field.ofJson?_toJson,
    Json.mapM_listOf? htext, List.map_id_fun, Option.map_id_fun, id_eq, getD_nonEmpty?]
  rfl

/-! ### Documents with the same entries

Two objects are alike when every key leads to like documents in both, and what a key leads to is its
first entry.  A decoder that looks entries up by key cannot tell such objects apart.
-/

namespace Json

variable {α : Type} {document other : Json}

mutual

theorem Alike.refl : (document : Json) → document.Alike document
  | .bool value => .bool value
  | .text value => .text value
  | .list items => .list (Alike.refl_items items)
  | .object entries => .object (Alike.refl_entries entries)

theorem Alike.refl_items : (items : List Json) → List.Forall₂ Alike items items
  | [] => .nil
  | item :: items => .cons (Alike.refl item) (Alike.refl_items items)

theorem Alike.refl_entries :
    (entries : List (Text × Json)) → ∀ key, Option.Rel Alike (entries.lookup key) (entries.lookup key)
  | [], _ => .none
  | (name, value) :: entries, key => by
    rw [lookup_cons_eq]
    split
    · exact .some (Alike.refl value)
    · exact Alike.refl_entries entries key

end

namespace Alike

/-- A decoder that does not tell like documents apart. -/
def Respects (decode? : Json → Option α) : Prop :=
  ∀ document other, Alike document other → decode? document = decode? other

theorem entry? (h : document.Alike other) (key : Text) :
    Option.Rel Alike (document.entry? key) (other.entry? key) := by
  cases h with
  | object each => exact each key
  | bool | text | list => exact .none

theorem respects_bool? : Respects bool? := by
  intro document other h
  cases h <;> rfl

theorem respects_text? : Respects text? := by
  intro document other h
  cases h <;> rfl

variable {decode? : Json → Option α}

theorem respects_listOf? (hdecode : Respects decode?) : Respects (listOf? decode?) := by
  intro document other h
  cases h with
  | list each =>
    show List.mapM decode? _ = List.mapM decode? _
    induction each with
    | nil => rfl
    | cons hitem _ ih => rw [List.mapM_cons, List.mapM_cons, hdecode _ _ hitem, ih]
  | bool | text | object => rfl

theorem respects_required? (key : Text) (hdecode : Respects decode?) :
    Respects (required? key decode?) := by
  intro document other h
  have hentry := h.entry? key
  unfold required?
  generalize document.entry? key = first at hentry
  generalize other.entry? key = second at hentry
  cases hentry with
  | none => rfl
  | some hvalue => exact hdecode _ _ hvalue

theorem respects_optional? (key : Text) (hdecode : Respects decode?) :
    Respects (optional? key decode?) := by
  intro document other h
  have hentry := h.entry? key
  unfold optional?
  generalize document.entry? key = first at hentry
  generalize other.entry? key = second at hentry
  cases hentry with
  | none => rfl
  | some hvalue => rw [Option.mapM_some, Option.mapM_some, hdecode _ _ hvalue]

end Alike

end Json

open Json.Alike in
theorem SubField.respects_ofJson? : Respects SubField.ofJson? := by
  intro document other h
  unfold ofJson?
  rw [respects_required? _ respects_text? _ _ h, respects_required? _ respects_text? _ _ h,
    respects_required? _ respects_bool? _ _ h]

open Json.Alike in
theorem NestedField.respects_ofJson? : Respects NestedField.ofJson? := by
  intro document other h
  unfold ofJson?
  rw [respects_required? _ respects_text? _ _ h, respects_required? _ respects_text? _ _ h,
    respects_required? _ respects_bool? _ _ h,
    respects_optional? _ (respects_listOf? SubField.respects_ofJson?) _ _ h]

open Json.Alike in
theorem Field.respects_ofJson? : Respects Field.ofJson? := by
  intro document other h
  unfold ofJson?
  rw [respects_required? _ respects_text? _ _ h, respects_required? _ respects_text? _ _ h,
    respects_required? _ respects_bool? _ _ h, respects_optional? _ respects_text? _ _ h,
    respects_optional? _ respects_text? _ _ h,
    respects_optional? _ (respects_listOf? NestedField.respects_ofJson?) _ _ h]

open Json.Alike in
theorem Schema.respects_ofJson? : Respects Schema.ofJson? := by
  intro document other h
  unfold ofJson?
  rw [respects_required? _ respects_text? _ _ h,
    respects_required? _ (respects_listOf? Field.respects_ofJson?) _ _ h,
    respects_optional? _ (respects_listOf? respects_text?) _ _ h]

/-! ### What an empty list does not change -/

theorem NestedField.getD_subFields_withoutEmptyList (nested : NestedField) :
    nested.withoutEmptyList.subFields.getD [] = nested.subFields.getD [] := by
  rw [withoutEmptyList, ← nonEmpty?_getD, getD_nonEmpty?]

theorem Field.getD_nestedFields_withoutEmptyLists (field : Field) :
    field.withoutEmptyLists.nestedFields.getD []
      = (field.nestedFields.getD []).map NestedField.withoutEmptyList := by
  rw [withoutEmptyLists, ← nonEmpty?_getD, ← nonEmpty?_map, getD_nonEmpty?]

theorem NestedField.toJson_withoutEmptyList (nested : NestedField) :
    nested.withoutEmptyList.toJson = nested.toJson := by
  rw [toJson, getD_subFields_withoutEmptyList]
  rfl

theorem Field.toJson_withoutEmptyLists (field : Field) :
    field.withoutEmptyLists.toJson = field.toJson := by
  have hlist (items : List NestedField) :
      listEntry "nestedFields".toList NestedField.toJson (items.map NestedField.withoutEmptyList)
        = listEntry "nestedFields".toList NestedField.toJson items := by
    cases items with
    | nil => rfl
    | cons item items => simp [listEntry, NestedField.toJson_withoutEmptyList]
  rw [toJson, getD_nestedFields_withoutEmptyLists, hlist]
  rfl

theorem Schema.toJson_withoutEmptyLists (schema : Schema) :
    schema.withoutEmptyLists.toJson = schema.toJson := by
  simp [toJson, withoutEmptyLists, Field.toJson_withoutEmptyLists]

theorem Field.table_withoutEmptyLists (field : Field) :
    NestedTable.ofList (field.withoutEmptyLists.nestedFields.getD [])
      = (NestedTable.ofList (field.nestedFields.getD [])).mapFirsts
          NestedField.withoutEmptyList := by
  have hname (nested : NestedField) : nested.withoutEmptyList.name = nested.name := rfl
  rw [getD_nestedFields_withoutEmptyLists, NestedTable.ofList_map hname]

/-- An array is projected in the same way. -/
theorem ArrayProjection.ofField_withoutEmptyLists (field : Field) :
    ArrayProjection.ofField field.withoutEmptyLists = ArrayProjection.ofField field := by
  have hentry (nested : NestedField) :
      Entry.ofNested nested.withoutEmptyList = Entry.ofNested nested := by
    rw [Entry.ofNested, NestedField.getD_subFields_withoutEmptyList]
    rfl
  rw [ofField_eq, ofField_eq, Field.table_withoutEmptyLists, NestedTable.mapFirsts, List.map_map,
    Function.comp_def]
  simp only [hentry]
  rfl

theorem Field.repeatWarnings_withoutEmptyLists (field : Field) :
    field.withoutEmptyLists.repeatWarnings = field.repeatWarnings := by
  rw [repeatWarnings, table_withoutEmptyLists]
  rfl

/-- So the queries are the same, and so are their warnings. -/
theorem Schema.queries_withoutEmptyLists (schema : Schema) :
    schema.withoutEmptyLists.queries = schema.queries := by
  have hprojection : schema.withoutEmptyLists.projection = schema.projection :=
    schema.projection_map (fun _ => rfl) (fun _ => rfl) ArrayProjection.ofField_withoutEmptyLists
  have hslug : schema.withoutEmptyLists.hasSlug = schema.hasSlug :=
    schema.hasSlug_map fun _ => rfl
  have harrays : schema.withoutEmptyLists.arrayFields
      = schema.arrayFields.map Field.withoutEmptyLists :=
    schema.arrayFields_map fun _ => rfl
  have hwarnings : schema.withoutEmptyLists.arrayFields.flatMap Field.repeatWarnings
      = schema.arrayFields.flatMap Field.repeatWarnings := by
    rw [harrays, List.flatMap_map]
    simp only [Field.repeatWarnings_withoutEmptyLists]
  rw [queries, hwarnings, hslug]
  simp only [query, hprojection]
  rfl

/-! ### Schemas without empty lists -/

theorem bind_nonEmpty?_eq_self_iff {α : Type} {level : Option (List α)} :
    level.bind nonEmpty? = level ↔ level ≠ some [] := by
  cases level with
  | none => simp
  | some items => cases items <;> simp [nonEmpty?]

theorem NestedField.withoutEmptyList_eq_self_iff {nested : NestedField} :
    nested.withoutEmptyList = nested ↔ nested.subFields ≠ some [] := by
  obtain ⟨name, type, validation, subFields⟩ := nested
  simp [withoutEmptyList, bind_nonEmpty?_eq_self_iff]

theorem Field.withoutEmptyLists_eq_self {field : Field} (hlist : field.nestedFields ≠ some [])
    (hbelow : ∀ nested ∈ field.nestedFields.getD [], nested.subFields ≠ some []) :
    field.withoutEmptyLists = field := by
  have hmap : field.nestedFields.map (List.map NestedField.withoutEmptyList) = field.nestedFields := by
    cases hnested : field.nestedFields with
    | none => rfl
    | some items =>
      rw [hnested, Option.getD_some] at hbelow
      rw [Option.map_some, Option.some.injEq]
      refine (List.map_congr_left ?_).trans (List.map_id items)
      intro item hitem
      exact NestedField.withoutEmptyList_eq_self_iff.mpr (hbelow item hitem)
  rw [withoutEmptyLists, bind_nonEmpty?_eq_self_iff.mpr hlist, hmap]

theorem Schema.HasNoEmptyList.withoutEmptyLists_eq {schema : Schema} (h : schema.HasNoEmptyList) :
    schema.withoutEmptyLists = schema := by
  have hfields : schema.fields.map Field.withoutEmptyLists = schema.fields := by
    refine (List.map_congr_left ?_).trans (List.map_id _)
    intro field hfield
    exact Field.withoutEmptyLists_eq_self (h field hfield).1 (h field hfield).2
  rw [withoutEmptyLists, hfields]

theorem Schema.WF.hasNoEmptyList {schema : Schema} (h : schema.WF) : schema.HasNoEmptyList := by
  intro field hfield
  have hwf := h.fields field hfield
  constructor
  · intro hnested
    exact (hwf.nestedFields [] hnested).1 rfl
  · intro nested hmem hsubs
    cases hlist : field.nestedFields with
    | none =>
      rw [hlist] at hmem
      cases hmem
    | some items =>
      rw [hlist] at hmem
      obtain ⟨-, -, -, hitems⟩ := hwf.nestedFields items hlist
      exact ((hitems nested hmem).subFields [] hsubs).1 rfl

/-- Leaving fields out makes no list empty: one that loses all its items goes as a whole. -/
theorem Schema.HasNoEmptyList.exclude {schema : Schema} (h : schema.HasNoEmptyList)
    (patterns : List Text) : (schema.exclude patterns).HasNoEmptyList := by
  intro field hfield
  obtain ⟨read, hread, rfl⟩ := List.mem_map.mp hfield
  obtain ⟨hlist, hbelow⟩ := h read (List.mem_filter.mp hread).1
  constructor
  · intro hnested
    obtain ⟨all, hall, -, hne⟩ := Field.exists_of_exclude_eq_some hnested
    refine hne ?_ rfl
    rintro rfl
    exact hlist hall
  · intro nested hmem hsubs
    rw [Field.getD_nestedFields_exclude] at hmem
    obtain ⟨item, hitem, rfl⟩ := List.mem_map.mp hmem
    rw [NestedField.exclude_eq] at hsubs
    obtain ⟨all, hall, -, hne⟩ := exists_of_leftOf_eq_some hsubs
    refine hne ?_ rfl
    rintro rfl
    exact hbelow item (List.mem_filter.mp hitem).1 hall

theorem Schema.HasNoEmptyList.foldl_exclude (rows : List (List Text)) {schema : Schema}
    (h : schema.HasNoEmptyList) :
    (rows.foldl (fun schema patterns => schema.exclude patterns) schema).HasNoEmptyList := by
  induction rows generalizing schema with
  | nil => exact h
  | cons patterns rows ih => exact ih (h.exclude patterns)

/-! ### What JSON tells of a schema -/

/-- **The JSON of a schema tells all of it but whether a list is empty or missing.**  Whatever the order
of its entries, it is decoded to the schema with nothing in the place of empty lists; that is the
schema itself if it has no empty list, as every schema has none that is read from a source, however
often fields are left out of it.  Two schemas have the same JSON just when they agree up to empty
lists, warnings included, and then their queries are the same. -/
theorem schemas_told_by_json :
    (∀ (schema : Schema) (document : Json), document.Alike schema.toJson →
      Schema.ofJson? document = some schema.withoutEmptyLists
      ∧ (schema.HasNoEmptyList → Schema.ofJson? document = some schema))
    ∧ (∀ (source : Text) (rows : List (List Text)),
      let schema := rows.foldl (fun schema patterns => schema.exclude patterns)
        (Schema.ofSource source)
      schema.HasNoEmptyList ∧ Schema.ofJson? schema.toJson = some schema)
    ∧ ∀ a b : Schema,
      (a.toJson = b.toJson ↔ a.withoutEmptyLists = b.withoutEmptyLists)
      ∧ (a.toJson.Alike b.toJson ↔ a.withoutEmptyLists = b.withoutEmptyLists)
      ∧ (a.toJson.Alike b.toJson → a.queries = b.queries) := by
  have hdecodes : ∀ (schema : Schema) (document : Json), document.Alike schema.toJson →
      Schema.ofJson? document = some schema.withoutEmptyLists := by
    intro schema document halike
    rw [Schema.respects_ofJson? _ _ halike, Schema.ofJson?_toJson]
  have hsame : ∀ a b : Schema, a.toJson.Alike b.toJson → a.withoutEmptyLists = b.withoutEmptyLists := by
    intro a b halike
    have hread := hdecodes b a.toJson halike
    rw [Schema.ofJson?_toJson] at hread
    exact Option.some.inj hread
  have hjson : ∀ a b : Schema, a.withoutEmptyLists = b.withoutEmptyLists → a.toJson = b.toJson := by
    intro a b hsame
    rw [← a.toJson_withoutEmptyLists, hsame, b.toJson_withoutEmptyLists]
  refine ⟨?_, ?_, ?_⟩
  · intro schema document halike
    refine ⟨hdecodes schema document halike, ?_⟩
    intro hlists
    rw [hdecodes schema document halike, hlists.withoutEmptyLists_eq]
  · intro source rows
    have hlists := (Schema.wf_ofSource source).hasNoEmptyList.foldl_exclude rows
    refine ⟨hlists, ?_⟩
    rw [Schema.ofJson?_toJson, hlists.withoutEmptyLists_eq]
  · intro a b
    have hlike : a.toJson = b.toJson → a.toJson.Alike b.toJson := by
      intro heq
      rw [heq]
      exact Json.Alike.refl b.toJson
    refine ⟨⟨fun heq => hsame a b (hlike heq), hjson a b⟩,
      ⟨hsame a b, fun hlists => hlike (hjson a b hlists)⟩, ?_⟩
    intro halike
    rw [← a.queries_withoutEmptyLists, hsame a b halike, b.queries_withoutEmptyLists]

-- An empty list of nested fields cannot be told from none, an empty title can.
example :
    let field : Field := { name := "a".toList, type := "array".toList }
    { field with nestedFields := some [] }.toJson = field.toJson
      ∧ Field.ofJson? { field with title := some [] }.toJson = some { field with title := some [] } :=
  ⟨rfl, rfl⟩

end GroqSnippets
