/-
Every schema that comes out of a source is well formed, and stays so when fields are left out.

Names, types and titles are what stood between two quotes.  Only an array of inline objects has
nested fields, at least one and each with a name of its own, and only an image has attributes, at
least one.  A validation rule inside an object is also inside what the object stands in, so a nested
field whose attribute has a rule has one itself.

Leaving fields out keeps all this, because a level that would become empty is dropped as a whole.
What remains stems from what was read: the same names, types, titles and rules in the same order,
some of them missing.
-/
import Mathlib.Data.List.Forall2
import GroqSnippets.Proofs.Exclusion.Levels
import GroqSnippets.Proofs.Schema.Reading

namespace GroqSnippets

/-! ### Well-formedness -/

structure SubField.WF (sub : SubField) : Prop where
  name : sub.name.IsValue
  type : sub.type.IsValue

/-- A nested field has a name and a type, and attributes only if it is an image. -/
structure NestedField.WF (nested : NestedField) : Prop where
  name : nested.name.IsValue
  type : nested.type.IsValue
  subFields : ∀ subs, nested.subFields = some subs →
    subs ≠ [] ∧ nested.type = "image".toList ∧ ∀ sub ∈ subs, sub.WF

/-- A field has a name, a type and perhaps a title, and nested fields only if it is an array of
objects. -/
structure Field.WF (field : Field) : Prop where
  name : field.name.IsValue
  type : field.type.IsValue
  title : ∀ title, field.title = some title → title.IsValue
  of : field.of = none ∨ field.of = some "object".toList
  of_iff : field.of = some "object".toList ↔ field.nestedFields ≠ none
  nestedFields : ∀ nested, field.nestedFields = some nested →
    nested ≠ [] ∧ field.type = "array".toList ∧ (nested.map (·.name)).Nodup
    ∧ ∀ item ∈ nested, item.WF

/-- A schema has a type name and well-formed fields. -/
structure Schema.WF (schema : Schema) : Prop where
  typeName : schema.typeName.IsValue
  fields : ∀ field ∈ schema.fields, field.WF

/-! ### What stems from what was read

Whether there is a rule is fixed when a schema is read, and then it may come from an attribute that
has been left out since.  So it is compared with what was read, and not with what is left.
-/

/-- A nested field stems from one that was read if it has all of it but perhaps some attributes, and
has a validation rule if any attribute that was read has one. -/
structure NestedField.StemsFrom (nested read : NestedField) : Prop where
  name : nested.name = read.name
  type : nested.type = read.type
  validation : nested.validation = read.validation
  subFields : ∀ subs, nested.subFields = some subs →
    ∃ all, read.subFields = some all ∧ subs.Sublist all
  inherits : ∀ subs, read.subFields = some subs → ∀ sub ∈ subs, sub.validation = true →
    nested.validation = true

/-- A field stems from one that was read if it has all of it but perhaps some nested fields. -/
structure Field.StemsFrom (field read : Field) : Prop where
  name : field.name = read.name
  type : field.type = read.type
  title : field.title = read.title
  validation : field.validation = read.validation
  nestedFields : ∀ nested, field.nestedFields = some nested →
    ∃ all, read.nestedFields = some all ∧ List.SublistForall₂ NestedField.StemsFrom nested all

/-- A schema stems from one that was read if it has all of it but perhaps some fields. -/
structure Schema.StemsFrom (schema read : Schema) : Prop where
  typeName : schema.typeName = read.typeName
  warnings : schema.warnings = read.warnings
  fields : List.SublistForall₂ Field.StemsFrom schema.fields read.fields

/-! ### Reading -/

theorem SubField.wf_of_declared {item : Text} {sub : SubField}
    (h : declaredSubField? item = some sub) :
    sub.WF := by
  obtain ⟨hname, -⟩ := declaredSubField?_eq_some_iff.mp h
  exact ⟨(isValue_of_nameAndType? hname).1, (isValue_of_nameAndType? hname).2⟩

theorem NestedField.wf_of_declared {item : Text} {nested : NestedField}
    (h : declaredNestedField? item = some nested) :
    nested.WF where
  name := (isValue_of_nameAndType? (declaredNestedField?_eq_some_iff.mp h).1).1
  type := (isValue_of_nameAndType? (declaredNestedField?_eq_some_iff.mp h).1).2
  subFields := by
    intro subs hsubs
    obtain ⟨-, -, hif⟩ := declaredNestedField?_eq_some_iff.mp h
    rw [hsubs] at hif
    split at hif
    · rename_i htype
      obtain ⟨body, -, rfl, hne⟩ := declaredSubFields?_eq_some_iff.mp hif.symm
      refine ⟨hne, by simpa using htype, ?_⟩
      intro sub hsub
      obtain ⟨_, -, hsub⟩ := List.mem_filterMap.mp hsub
      exact SubField.wf_of_declared hsub
    · cases hif

/-- A rule inside an attribute is inside the object that has the attribute. -/
theorem NestedField.stemsFrom_self_of_declared {item : Text} {nested : NestedField}
    (h : declaredNestedField? item = some nested) : nested.StemsFrom nested where
  name := rfl
  type := rfl
  validation := rfl
  subFields subs hsubs := ⟨subs, hsubs, List.Sublist.refl _⟩
  inherits := by
    intro subs hsubs sub hsub hvalidation
    obtain ⟨-, hrule, hif⟩ := declaredNestedField?_eq_some_iff.mp h
    rw [hsubs] at hif
    split at hif
    · obtain ⟨body, hbody, rfl, -⟩ := declaredSubFields?_eq_some_iff.mp hif.symm
      obtain ⟨object, hobject, hdeclared⟩ := List.mem_filterMap.mp hsub
      rw [(declaredSubField?_eq_some_iff.mp hdeclared).2] at hvalidation
      rw [hrule]
      exact mentionsValidation_of_object hbody hobject hvalidation
    · cases hif

/-- A field that a block declares is well formed, and has nothing below it yet. -/
theorem Field.wf_of_declared {block : Text} {field : Field}
    (h : declaredField? block = some field) :
    field.WF := by
  obtain ⟨hname, htitle, -, hof, hnested⟩ := declaredField?_eq_some_iff.mp h
  refine ⟨(isValue_of_nameAndType? hname).1, (isValue_of_nameAndType? hname).2,
    ?_, Or.inl hof, ?_, ?_⟩
  · intro title h
    exact Pattern.isValue_of_firstValue? (htitle.symm.trans h)
  · simp [hof, hnested]
  · intro nested h
    rw [hnested] at h
    cases h

theorem Field.WF.complete {field : Field} (h : field.WF) (blocks : NamedBlocks) :
    (field.complete blocks).1.WF := by
  rcases complete_cases blocks field with hsame | ⟨harray, body, kept, hne, hkept, hcomplete⟩
  · rwa [hsame]
  · rw [hcomplete]
    obtain ⟨hsub, hnodup, -⟩ :=
      keepFirstNames_spec [] ((objects body).filterMap declaredNestedField?)
    rw [← hkept] at hsub hnodup
    refine ⟨h.name, h.type, h.title, Or.inr rfl, by simp, ?_⟩
    intro nested hnested
    obtain rfl := Option.some.inj hnested
    refine ⟨hne, by simpa [Field.isArray] using harray, hnodup, ?_⟩
    intro item hitem
    obtain ⟨_, -, hdeclared⟩ := List.mem_filterMap.mp (hsub.subset hitem)
    exact NestedField.wf_of_declared hdeclared

theorem Field.stemsFrom_self_of_declared {block : Text} {field : Field} (blocks : NamedBlocks)
    (h : declaredField? block = some field) :
    (field.complete blocks).1.StemsFrom (field.complete blocks).1 := by
  refine ⟨rfl, rfl, rfl, rfl, ?_⟩
  intro nested hnested
  refine ⟨nested, hnested, ?_⟩
  obtain ⟨-, -, -, -, hnone⟩ := declaredField?_eq_some_iff.mp h
  rcases complete_cases blocks field with hsame | ⟨-, body, kept, -, hkept, hcomplete⟩
  · rw [hsame, hnone] at hnested
    cases hnested
  · rw [hcomplete] at hnested
    obtain rfl := Option.some.inj hnested
    have hsub := (keepFirstNames_spec [] ((objects body).filterMap declaredNestedField?)).1
    rw [← hkept] at hsub
    refine List.sublistForall₂_iff.mpr ⟨kept, List.forall₂_same.mpr ?_, List.Sublist.refl _⟩
    intro item hitem
    obtain ⟨_, -, hdeclared⟩ := List.mem_filterMap.mp (hsub.subset hitem)
    exact NestedField.stemsFrom_self_of_declared hdeclared

/-- A field of a schema that was read is a declared field, completed. -/
theorem Schema.exists_declared_of_mem_fields {source : Text} {field : Field}
    (h : field ∈ (Schema.ofSource source).fields) :
    ∃ block declared, declaredField? block = some declared
      ∧ field = (declared.complete (NamedBlocks.ofBlocks (fieldPattern.blocks source))).1 := by
  simp only [Schema.ofSource, Reading.ofSource, readFields, List.map_map, List.mem_map,
    List.mem_filterMap] at h
  obtain ⟨declared, ⟨block, -, hdeclared⟩, rfl⟩ := h
  exact ⟨block, declared, hdeclared, rfl⟩

theorem Schema.wf_ofSource (source : Text) : (Schema.ofSource source).WF where
  typeName := by
    show ((namePattern.firstValue? source).getD unknownTypeName).IsValue
    cases hname : namePattern.firstValue? source with
    | none => exact ⟨by decide, by decide, by decide⟩
    | some name => exact Pattern.isValue_of_firstValue? hname
  fields := by
    intro field hfield
    obtain ⟨block, declared, hdeclared, rfl⟩ := exists_declared_of_mem_fields hfield
    exact (Field.wf_of_declared hdeclared).complete _

theorem Schema.stemsFrom_self_ofSource (source : Text) :
    (Schema.ofSource source).StemsFrom (Schema.ofSource source) where
  typeName := rfl
  warnings := rfl
  fields := by
    refine List.sublistForall₂_iff.mpr ⟨_, List.forall₂_same.mpr ?_, List.Sublist.refl _⟩
    intro field hfield
    obtain ⟨block, declared, hdeclared, rfl⟩ := exists_declared_of_mem_fields hfield
    exact Field.stemsFrom_self_of_declared _ hdeclared

/-! ### Leaving fields out

Items are left out and the others changed.  The order of those that stay is the order they had, so
one lemma about sublists serves all levels.
-/

/-- Leaving some out and changing the others within a relation keeps a list within it. -/
theorem sublistForall₂_map_filter {α β : Type} {R : α → β → Prop} {items : List α} {read : List β}
    (h : List.SublistForall₂ R items read) (p : α → Bool) {f : α → α}
    (hf : ∀ a b, R a b → R (f a) b) :
    List.SublistForall₂ R ((items.filter p).map f) read := by
  induction h with
  | nil => exact .nil
  | cons hab _ ih =>
    rw [List.filter_cons]
    split
    · exact .cons (hf _ _ hab) ih
    · exact .cons_right ih
  | cons_right _ ih => exact .cons_right ih

section

variable {patterns : List Text} {parent : Text} {nested : NestedField} {field : Field}

theorem NestedField.WF.exclude (h : nested.WF) : (nested.exclude patterns parent).WF := by
  rw [NestedField.exclude_eq]
  refine ⟨h.name, h.type, ?_⟩
  intro subs hsome
  obtain ⟨all, hall, rfl, hne⟩ := exists_of_leftOf_eq_some hsome
  obtain ⟨hall', himage, hwf⟩ := h.subFields all hall
  refine ⟨hne hall', himage, ?_⟩
  intro sub hmem
  exact hwf sub (List.mem_filter.mp hmem).1

theorem NestedField.StemsFrom.exclude {read : NestedField} (h : nested.StemsFrom read) :
    (nested.exclude patterns parent).StemsFrom read := by
  rw [NestedField.exclude_eq]
  refine ⟨h.name, h.type, h.validation, ?_, h.inherits⟩
  intro subs hsome
  obtain ⟨all, hall, rfl, -⟩ := exists_of_leftOf_eq_some hsome
  obtain ⟨read, hread, hsub⟩ := h.subFields all hall
  exact ⟨read, hread, List.filter_sublist.trans hsub⟩

/-- What is left of an array comes from the nested fields that it had, and it has one if it had
one. -/
theorem Field.exists_of_exclude_eq_some {left : List NestedField}
    (h : (field.exclude patterns).nestedFields = some left) :
    ∃ all, field.nestedFields = some all
      ∧ left = (all.filter fun nested => !excludes patterns (childPath field.name nested.name)).map
          (NestedField.exclude patterns field.name)
      ∧ (all ≠ [] → left ≠ []) := by
  rw [exclude_eq] at h
  obtain ⟨kept, hkept, rfl⟩ := Option.map_eq_some_iff.mp h
  obtain ⟨all, hall, rfl, hne⟩ := exists_of_leftOf_eq_some hkept
  exact ⟨all, hall, rfl, fun hall' => by simpa using hne hall'⟩

theorem Field.WF.exclude (h : field.WF) : (field.exclude patterns).WF := by
  have hnested : ∀ left, (field.exclude patterns).nestedFields = some left →
      left ≠ [] ∧ field.type = "array".toList ∧ (left.map (·.name)).Nodup
        ∧ ∀ item ∈ left, item.WF := by
    intro left hleft
    obtain ⟨all, hall, rfl, hne⟩ := Field.exists_of_exclude_eq_some hleft
    obtain ⟨hall', harray, hnodup, hwf⟩ := h.nestedFields all hall
    refine ⟨hne hall', harray, ?_, ?_⟩
    · -- Leaving attributes out does not touch names.
      have hnames : (NestedField.name ∘ NestedField.exclude patterns field.name)
          = NestedField.name := funext (NestedField.name_exclude patterns field.name)
      rw [List.map_map, hnames]
      exact hnodup.sublist (List.filter_sublist.map _)
    · intro item hitem
      obtain ⟨nested, hnested, rfl⟩ := List.mem_map.mp hitem
      exact (hwf nested (List.mem_filter.mp hnested).1).exclude
  rw [Field.exclude_eq] at hnested ⊢
  refine ⟨h.name, h.type, h.title, ?_, ?_, hnested⟩
  · dsimp only
    split
    · exact .inl rfl
    · exact h.of
  · have hof := h.of_iff
    cases hleft : leftOf (fun nested => !excludes patterns (childPath field.name nested.name))
        field.nestedFields with
    | none => cases hall : field.nestedFields with
      | none => simpa [hall] using hof
      | some all => simp
    | some left =>
      obtain ⟨all, hall, -⟩ := exists_of_leftOf_eq_some hleft
      simpa [hall] using hof

theorem Field.StemsFrom.exclude {read : Field} (h : field.StemsFrom read) :
    (field.exclude patterns).StemsFrom read := by
  have hnested : ∀ left, (field.exclude patterns).nestedFields = some left →
      ∃ all, read.nestedFields = some all
        ∧ List.SublistForall₂ NestedField.StemsFrom left all := by
    intro left hleft
    obtain ⟨all, hall, rfl, -⟩ := Field.exists_of_exclude_eq_some hleft
    obtain ⟨readAll, hread, hstems⟩ := h.nestedFields all hall
    refine ⟨readAll, hread, sublistForall₂_map_filter hstems _ ?_⟩
    intro nested read hstem
    exact hstem.exclude
  rw [Field.exclude_eq] at hnested ⊢
  exact ⟨h.name, h.type, h.title, h.validation, hnested⟩

end

theorem Schema.WF.exclude {schema : Schema} (h : schema.WF) (patterns : List Text) :
    (schema.exclude patterns).WF where
  typeName := h.typeName
  fields := by
    intro field hfield
    obtain ⟨kept, hkept, rfl⟩ := List.mem_map.mp hfield
    exact (h.fields kept (List.mem_filter.mp hkept).1).exclude

theorem Schema.StemsFrom.exclude {schema read : Schema} (h : schema.StemsFrom read)
    (patterns : List Text) :
    (schema.exclude patterns).StemsFrom read where
  typeName := h.typeName
  warnings := h.warnings
  fields := by
    refine sublistForall₂_map_filter h.fields _ ?_
    intro field read hstem
    exact hstem.exclude

/-! ### All runs -/

/-- **Every schema that comes out is well formed**, however often fields are left out of it, and
what remains stems from what was read. -/
theorem wf_of_excludes (source : Text) (runs : List (List Text)) :
    let schema := runs.foldl (fun schema patterns => schema.exclude patterns)
      (Schema.ofSource source)
    schema.WF ∧ schema.StemsFrom (Schema.ofSource source) := by
  have hrun : ∀ schema : Schema, schema.WF → schema.StemsFrom (Schema.ofSource source) →
      (runs.foldl (fun schema patterns => schema.exclude patterns) schema).WF
        ∧ (runs.foldl (fun schema patterns => schema.exclude patterns) schema).StemsFrom
          (Schema.ofSource source) := by
    induction runs with
    | nil =>
      intro schema hwf hstems
      exact ⟨hwf, hstems⟩
    | cons patterns runs ih =>
      intro schema hwf hstems
      rw [List.foldl_cons]
      exact ih _ (hwf.exclude patterns) (hstems.exclude patterns)
  exact hrun _ (Schema.wf_ofSource source) (Schema.stemsFrom_self_ofSource source)

end GroqSnippets
