/-
Leaving fields out, level by level.

Every level of a schema is cut down in the same way: the items whose paths match go, and if none is
left, the level itself goes.  A level that is missing stays missing, and one that had no items to
begin with stays an empty one.  `leftOf` is that rule; an image, an array and a schema each apply it
once, and an array also forgets what it holds when it loses its level.

So nothing at all changes exactly when every item of every level stays.
-/
import GroqSnippets.Exclusion

namespace GroqSnippets

/-! ### One level -/

theorem getD_nonEmpty? {α : Type} (items : List α) : (nonEmpty? items).getD [] = items := by
  cases items <;> rfl

theorem nonEmpty?_eq_some_iff {α : Type} {items kept : List α} :
    nonEmpty? items = some kept ↔ items = kept ∧ kept ≠ [] := by
  cases items with
  | nil => simp [nonEmpty?, eq_comm]
  | cons item items =>
    simp only [nonEmpty?, Option.some.injEq, iff_self_and]
    rintro rfl
    exact List.cons_ne_nil _ _

/-- What is left of a level.  If its last item goes, the level goes; a level without items stays as
it is. -/
def leftOf {α : Type} (keeps : α → Bool) : Option (List α) → Option (List α)
  | none => none
  | some [] => some []
  | some items => nonEmpty? (items.filter keeps)

section

variable {α : Type} {keeps : α → Bool} {items : List α}

theorem leftOf_some (h : items ≠ []) : leftOf keeps (some items) = nonEmpty? (items.filter keeps) := by
  cases items with
  | nil => exact absurd rfl h
  | cons item items => rfl

theorem leftOf_nonEmpty? : leftOf keeps (nonEmpty? items) = nonEmpty? (items.filter keeps) := by
  cases items <;> rfl

theorem leftOf_leftOf (first second : α → Bool) (level : Option (List α)) :
    leftOf second (leftOf first level) = leftOf (fun item => second item && first item) level := by
  cases level with
  | none => rfl
  | some items =>
    by_cases hitems : items = []
    · rw [hitems]
      rfl
    · rw [leftOf_some hitems, leftOf_some hitems, leftOf_nonEmpty?, List.filter_filter]

theorem nonEmpty?_map (change : α → α) :
    nonEmpty? (items.map change) = (nonEmpty? items).map (List.map change) := by
  cases items <;> rfl

/-- Items that are changed without being told apart are left out as before. -/
theorem leftOf_map {change : α → α} (hkeeps : ∀ item, keeps (change item) = keeps item)
    (level : Option (List α)) :
    leftOf keeps (level.map (List.map change)) = (leftOf keeps level).map (List.map change) := by
  cases level with
  | none => rfl
  | some items =>
    by_cases hitems : items = []
    · rw [hitems]
      rfl
    · have hfilter : (items.map change).filter keeps = (items.filter keeps).map change := by
        rw [List.filter_map]
        congr 1
        exact List.filter_congr fun item _ => hkeeps item
      rw [Option.map_some, leftOf_some (by simpa using hitems), leftOf_some hitems, hfilter,
        nonEmpty?_map]

/-- A level that is left was there before, and has an item if it had one. -/
theorem exists_of_leftOf_eq_some {level : Option (List α)} {left : List α}
    (h : leftOf keeps level = some left) :
    ∃ items, level = some items ∧ left = items.filter keeps ∧ (items ≠ [] → left ≠ []) := by
  cases level with
  | none => cases h
  | some items =>
    by_cases hitems : items = []
    · rw [hitems] at h ⊢
      obtain rfl := Option.some.inj h
      exact ⟨[], rfl, rfl, id⟩
    · rw [leftOf_some hitems] at h
      obtain ⟨rfl, hne⟩ := nonEmpty?_eq_some_iff.mp h
      exact ⟨items, rfl, rfl, fun _ => hne⟩

/-- Whether a level is missing or empty, nothing is left of it. -/
theorem getD_leftOf (keeps : α → Bool) (level : Option (List α)) :
    (leftOf keeps level).getD [] = (level.getD []).filter keeps := by
  cases level with
  | none => rfl
  | some items =>
    by_cases hitems : items = []
    · rw [hitems]
      rfl
    · rw [leftOf_some hitems, getD_nonEmpty?, Option.getD_some]

/-- A level is left as it is when all its items stay. -/
theorem leftOf_eq_self_iff {level : Option (List α)} :
    leftOf keeps level = level ↔ ∀ item ∈ level.getD [], keeps item = true := by
  cases level with
  | none => simp [leftOf]
  | some items =>
    by_cases hitems : items = []
    · simp [hitems, leftOf]
    · rw [leftOf_some hitems, Option.getD_some, ← List.filter_eq_self]
      cases hfilter : items.filter keeps with
      | nil => simp [nonEmpty?, Ne.symm hitems]
      | cons item kept => simp [nonEmpty?]

end

/-! ### Images and arrays

An array is changed at two levels at once.  Its nested fields are left out first and lose attributes
after that, so a path of an attribute matters only below a nested field that stays.
-/

section

variable (patterns : List Text)

/-- An image is left with what is left of its attributes. -/
theorem NestedField.exclude_eq (parent : Text) (nested : NestedField) :
    nested.exclude patterns parent
      = { nested with
          subFields := leftOf (fun sub =>
            !excludes patterns (childPath (childPath parent nested.name) sub.name))
              nested.subFields } := by
  obtain ⟨name, type, validation, subFields⟩ := nested
  cases subFields with
  | none => rfl
  | some subs => cases subs <;> rfl

/-- An array is left with what is left of its nested fields, and forgets what it holds when none of
them is. -/
theorem Field.exclude_eq (field : Field) :
    let left := leftOf (fun nested => !excludes patterns (childPath field.name nested.name))
      field.nestedFields
    field.exclude patterns
      = { field with
          of := if left.isNone && field.nestedFields.isSome then none else field.of
          nestedFields := left.map (List.map (NestedField.exclude patterns field.name)) } := by
  obtain ⟨name, type, title, validation, of, nestedFields⟩ := field
  cases nestedFields with
  | none => rfl
  | some nested =>
    cases nested with
    | nil => rfl
    | cons first rest =>
      unfold Field.exclude leftOf
      dsimp only
      rw [nonEmpty?_map]
      cases nonEmpty? ((first :: rest).filter fun nested =>
        !excludes patterns (childPath name nested.name)) <;> rfl

theorem NestedField.name_exclude (parent : Text) (nested : NestedField) :
    (nested.exclude patterns parent).name = nested.name := by
  rw [exclude_eq]

theorem NestedField.type_exclude (parent : Text) (nested : NestedField) :
    (nested.exclude patterns parent).type = nested.type := by
  rw [exclude_eq]

theorem NestedField.getD_subFields_exclude (parent : Text) (nested : NestedField) :
    (nested.exclude patterns parent).subFields.getD []
      = (nested.subFields.getD []).filter fun sub =>
        !excludes patterns (childPath (childPath parent nested.name) sub.name) := by
  rw [exclude_eq, getD_leftOf]

theorem Field.name_exclude (field : Field) : (field.exclude patterns).name = field.name := by
  rw [exclude_eq]

theorem Field.isArray_exclude (field : Field) : (field.exclude patterns).isArray = field.isArray := by
  rw [exclude_eq]
  rfl

theorem Field.getD_nestedFields_exclude (field : Field) :
    (field.exclude patterns).nestedFields.getD []
      = ((field.nestedFields.getD []).filter fun nested =>
          !excludes patterns (childPath field.name nested.name)).map
        (NestedField.exclude patterns field.name) := by
  rw [exclude_eq, ← getD_leftOf]
  cases leftOf _ field.nestedFields <;> rfl

theorem NestedField.exclude_eq_self_iff {parent : Text} {nested : NestedField} :
    nested.exclude patterns parent = nested
      ↔ ∀ sub ∈ nested.subFields.getD [],
          excludes patterns (childPath (childPath parent nested.name) sub.name) = false := by
  obtain ⟨name, type, validation, subFields⟩ := nested
  simp [NestedField.exclude_eq, leftOf_eq_self_iff]

/-- An array is left as it is when all its nested fields stay and are left as they are. -/
theorem Field.exclude_eq_self_iff {field : Field} :
    field.exclude patterns = field
      ↔ ∀ nested ∈ field.nestedFields.getD [],
          excludes patterns (childPath field.name nested.name) = false
            ∧ nested.exclude patterns field.name = nested := by
  constructor
  · intro hsame
    have hmap := field.getD_nestedFields_exclude patterns
    rw [hsame] at hmap
    -- As many nested fields are left as there were, so none has been left out.
    have hlength := congrArg List.length hmap.symm
    rw [List.length_map, List.length_filter_eq_length_iff] at hlength
    rw [List.filter_eq_self.mpr hlength] at hmap
    intro nested hnested
    have hbelow : ∀ item ∈ field.nestedFields.getD [], item = item.exclude patterns field.name :=
      List.map_inj_left.mp ((List.map_id _).trans hmap)
    exact ⟨by simpa using hlength nested hnested, (hbelow nested hnested).symm⟩
  · intro hstay
    obtain ⟨name, type, title, validation, of, nestedFields⟩ := field
    have hleft : leftOf (fun nested => !excludes patterns (childPath name nested.name)) nestedFields
        = nestedFields := by
      refine leftOf_eq_self_iff.mpr ?_
      intro item hitem
      rw [(hstay item hitem).1, Bool.not_false]
    have hmap : nestedFields.map (List.map (NestedField.exclude patterns name)) = nestedFields := by
      cases nestedFields with
      | none => rfl
      | some nested =>
        rw [Option.map_some, Option.some.injEq]
        refine (List.map_congr_left ?_).trans (List.map_id nested)
        intro item hitem
        exact (hstay item hitem).2
    have hof : (nestedFields.isNone && nestedFields.isSome) = false := by
      cases nestedFields <;> rfl
    simp only [exclude_eq, hleft, hmap, hof]
    rfl

end

end GroqSnippets
