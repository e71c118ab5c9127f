/-
Which nested fields are left out, and what is said about it.

An array is completed from one list of items.  An item is left out when one before it in that list
has its name, and every item that is left out is worth one warning, in the order of the items.  So
the warnings of a schema are, array by array, the left-out items of each, and what an array keeps
are exactly the others.

Reading goes through a list once and remembers the names it has met.  Here the same choice is made
by position: the first items up to a place decide about the item there.  The induction that
proves the two equal is along the list, with the part that is already read held in front of it.
-/
import GroqSnippets.Exclusion
import GroqSnippets.Proofs.Schema.Reading

namespace GroqSnippets

/-! ### Repeated names

Which items are kept is said by position: an item is kept when no item in front of it has its name.
A reader carries the names it has met instead, so the two are compared with any names to begin with.
-/

/-- Whether one of the first items of a list has a name. -/
def namedBefore (nested : List NestedField) (i : Nat) (name : Text) : Bool :=
  (nested.take i).any (·.name == name)

/-- The items of a list that have names of their own so far, in order. -/
def firstsOf (nested : List NestedField) : List NestedField :=
  (nested.zipIdx.filter fun (item, i) => !namedBefore nested i item.name).map (·.1)

/-- The items of a list that repeat the name of one before them, in order. -/
def repeatsOf (nested : List NestedField) : List NestedField :=
  (nested.zipIdx.filter fun (item, i) => namedBefore nested i item.name).map (·.1)

/-- What stands in front of a place decides there. -/
theorem namedBefore_append (before after : List NestedField) (name : Text) :
    namedBefore (before ++ after) before.length name = before.any (·.name == name) := by
  rw [namedBefore, List.take_left]

/-- Reading on with the names of a first part keeps and drops the items of the rest by position. -/
theorem keepFirstNames_append {seen : List Text} {before : List NestedField} (rest : List NestedField)
    (hseen : ∀ name, seen.contains name = before.any (·.name == name)) :
    keepFirstNames seen rest
      = (((rest.zipIdx before.length).filter fun (item, i) =>
            !namedBefore (before ++ rest) i item.name).map (·.1),
          ((rest.zipIdx before.length).filter fun (item, i) =>
            namedBefore (before ++ rest) i item.name).map (·.1)) := by
  induction rest generalizing seen before with
  | nil => rfl
  | cons first rest ih =>
    have hsplit : before ++ first :: rest = (before ++ [first]) ++ rest := by simp
    have hlength : before.length + 1 = (before ++ [first]).length := by simp
    rw [keepFirstNames, List.zipIdx_cons, hlength]
    by_cases htaken : seen.contains first.name = true
    · have hfirst : namedBefore (before ++ first :: rest) before.length first.name = true := by
        rw [namedBefore_append, ← hseen, htaken]
      have hsame : ∀ name, seen.contains name = (before ++ [first]).any (·.name == name) := by
        intro name
        rw [hseen, List.any_append, List.any_cons, List.any_nil, Bool.or_false]
        by_cases hname : first.name = name
        · rw [← hname, ← hseen, htaken, Bool.true_or]
        · simp [hname]
      rw [if_pos htaken, ih hsame, List.filter_cons_of_neg (by simp [hfirst]),
        List.filter_cons_of_pos (by simp [hfirst]), ← hsplit, List.map_cons]
    · have hfirst : namedBefore (before ++ first :: rest) before.length first.name = false := by
        rw [namedBefore_append, ← hseen]
        simpa using htaken
      have hmore : ∀ name, (first.name :: seen).contains name
          = (before ++ [first]).any (·.name == name) := by
        intro name
        rw [List.contains_cons, hseen, List.any_append, List.any_cons, List.any_nil, Bool.or_false,
          Bool.or_comm, BEq.comm]
      rw [if_neg htaken, ih hmore, List.filter_cons_of_pos (by simp [hfirst]),
        List.filter_cons_of_neg (by simp [hfirst]), ← hsplit, List.map_cons]

/-- The items that are kept are the first ones of their names, and those that are dropped are the
others. -/
theorem keepFirstNames_eq (nested : List NestedField) :
    keepFirstNames [] nested = (firstsOf nested, repeatsOf nested) := by
  have hnone : ∀ name, ([] : List Text).contains name = ([] : List NestedField).any (·.name == name) :=
    fun _ => rfl
  exact keepFirstNames_append nested hnone

theorem firstsOf_eq_nil_iff {nested : List NestedField} : firstsOf nested = [] ↔ nested = [] := by
  cases nested with
  | nil => simp [firstsOf]
  | cons first rest =>
    have hkeep : keepFirstNames [] (first :: rest)
        = (first :: (keepFirstNames [first.name] rest).1, (keepFirstNames [first.name] rest).2) := rfl
    rw [keepFirstNames_eq, Prod.mk.injEq] at hkeep
    simp [hkeep.1]

theorem firstsOf_subset (nested : List NestedField) : firstsOf nested ⊆ nested := by
  have hsub := (keepFirstNames_spec [] nested).1
  rw [keepFirstNames_eq] at hsub
  exact hsub.subset

theorem nodup_firstsOf (nested : List NestedField) : ((firstsOf nested).map (·.name)).Nodup := by
  have hnodup := (keepFirstNames_spec [] nested).2.1
  rwa [keepFirstNames_eq] at hnodup

/-- What is kept and what is passed over are the whole list between them. -/
theorem firstsOf_append_repeatsOf_perm (nested : List NestedField) :
    (firstsOf nested ++ repeatsOf nested).Perm nested := by
  have hitems : (nested.zipIdx.map (·.1)).Perm nested :=
    List.Perm.of_eq (List.zipIdx_map_fst 0 nested)
  rw [firstsOf, repeatsOf, ← List.map_append]
  refine List.Perm.trans (List.Perm.map _ (List.perm_append_comm.trans ?_)) hitems
  exact List.filter_append_perm _ nested.zipIdx

section

variable {nested : List NestedField} (hnodup : (nested.map (·.name)).Nodup)

include hnodup

/-- Items with names of their own are all kept. -/
theorem firstsOf_of_nodup : firstsOf nested = nested := by
  have hkeep := keepFirstNames_of_nodup hnodup fun _ _ => List.not_mem_nil
  rw [keepFirstNames_eq] at hkeep
  exact congrArg Prod.fst hkeep

theorem repeatsOf_of_nodup : repeatsOf nested = [] := by
  have hkeep := keepFirstNames_of_nodup hnodup fun _ _ => List.not_mem_nil
  rw [keepFirstNames_eq] at hkeep
  exact congrArg Prod.snd hkeep

end

/-! ### Arrays

Whether an array is completed depends on whether any item is kept, which is whether there is any
item at all.  So a list that has only repeats does not occur.
-/

/-- The items of the field list that an array is completed from; none for a field that is no array
or that has no such list. -/
def Field.listItems (blocks : NamedBlocks) (field : Field) : List NestedField :=
  if field.isArray then
    match (blocks.find? field.name).bind memberFields? with
    | some body => (objects body).filterMap declaredNestedField?
    | none => []
  else []

/-- The warnings that completing a field gives rise to. -/
def Field.dropWarnings (blocks : NamedBlocks) (field : Field) : List Text :=
  (repeatsOf (field.listItems blocks)).map fun nested => duplicateWarning nested.name field.name

theorem Field.warnings_withMembers (field : Field) (body : Text) :
    (field.withMembers body).2.filterMap Note.warning?
      = (repeatsOf ((objects body).filterMap declaredNestedField?)).map fun nested =>
          duplicateWarning nested.name field.name := by
  rw [withMembers]
  generalize hitems : (objects body).filterMap declaredNestedField? = items
  split
  · rename_i dropped hkeep
    rw [keepFirstNames_eq, Prod.mk.injEq] at hkeep
    obtain rfl := firstsOf_eq_nil_iff.mp hkeep.1
    rfl
  · rename_i kept dropped _ hkeep
    rw [keepFirstNames_eq, Prod.mk.injEq] at hkeep
    rw [hkeep.2, List.filterMap_map, ← List.filterMap_eq_map]
    rfl

theorem Field.nestedFields_withMembers {field : Field} (h : field.nestedFields = none) (body : Text) :
    (field.withMembers body).1.nestedFields
      = nonEmpty? (firstsOf ((objects body).filterMap declaredNestedField?)) := by
  rw [withMembers]
  generalize hitems : (objects body).filterMap declaredNestedField? = items
  split
  · rename_i dropped hkeep
    rw [keepFirstNames_eq, Prod.mk.injEq] at hkeep
    rw [hkeep.1, h]
    rfl
  · rename_i kept dropped hne hkeep
    rw [keepFirstNames_eq, Prod.mk.injEq] at hkeep
    rw [hkeep.1]
    cases kept with
    | nil => exact absurd rfl hne
    | cons first rest => rfl

/-- Completing a field keeps the first items of its list and warns about the others. -/
theorem Field.complete_spec {field : Field} (h : field.nestedFields = none) (blocks : NamedBlocks) :
    (field.complete blocks).1.nestedFields = nonEmpty? (firstsOf (field.listItems blocks))
      ∧ (field.complete blocks).2.filterMap Note.warning? = field.dropWarnings blocks := by
  rw [complete, dropWarnings, listItems]
  by_cases harray : field.isArray = true
  · rw [if_pos harray, if_pos harray]
    cases (blocks.find? field.name).bind memberFields? with
    | none => exact ⟨h, rfl⟩
    | some body => exact ⟨nestedFields_withMembers h body, warnings_withMembers field body⟩
  · rw [if_neg harray, if_neg harray]
    exact ⟨h, rfl⟩

/-! ### The whole source -/

/-- What the fields of a source keep, one after the other. -/
theorem nestedFields_ofSource (source : Text) :
    let blocks := fieldPattern.blocks source
    (Schema.ofSource source).fields.map (·.nestedFields)
      = (blocks.filterMap declaredField?).map fun field =>
          nonEmpty? (firstsOf (field.listItems (NamedBlocks.ofBlocks blocks))) := by
  dsimp only
  rw [fields_ofSource, List.map_map]
  refine List.map_congr_left ?_
  intro field hfield
  obtain ⟨block, -, hdeclared⟩ := List.mem_filterMap.mp hfield
  obtain ⟨-, -, -, -, hnone⟩ := declaredField?_eq_some_iff.mp hdeclared
  exact (Field.complete_spec hnone _).1

/-- The warnings of a source, array after array and item after item. -/
theorem warnings_ofSource (source : Text) :
    let blocks := fieldPattern.blocks source
    (Schema.ofSource source).warnings
      = (blocks.filterMap declaredField?).flatMap fun field =>
          field.dropWarnings (NamedBlocks.ofBlocks blocks) := by
  dsimp only
  show ((readFields source).flatMap (·.2)).filterMap Note.warning? = _
  rw [List.filterMap_flatMap, readFields, List.flatMap_map]
  refine List.flatMap_congr ?_
  intro field hfield
  obtain ⟨block, -, hdeclared⟩ := List.mem_filterMap.mp hfield
  obtain ⟨-, -, -, -, hnone⟩ := declaredField?_eq_some_iff.mp hdeclared
  -- The note about the field itself is no warning.
  exact (Field.complete_spec hnone _).2

end GroqSnippets
