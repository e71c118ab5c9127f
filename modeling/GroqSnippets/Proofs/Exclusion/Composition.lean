/-
Leaving fields out in several steps.

Leaving fields out by some patterns and then by others is leaving them out by all of them at once.
At one level of a schema that is two filters in a row.  The levels do not get into each other's way,
because a path is made of names, and leaving out changes no name; and a level that is emptied in the
first step has nothing left for the second one, which is also what the patterns together leave of it.

Only the paths that are matched decide what stays, so patterns may be given in any order, more than
once, and spread over as many hooks as one likes.
-/
import GroqSnippets.Proofs.Exclusion.Levels
import GroqSnippets.Proofs.Generation.Run

namespace GroqSnippets

theorem excludes_append (first second : List Text) (path : Text) :
    excludes (first ++ second) path = (excludes first path || excludes second path) :=
  List.any_append

section

variable (first second : List Text)

theorem NestedField.exclude_exclude (parent : Text) (nested : NestedField) :
    (nested.exclude first parent).exclude second parent = nested.exclude (first ++ second) parent := by
  simp only [NestedField.exclude_eq, leftOf_leftOf, excludes_append, Bool.not_or, Bool.and_comm]

theorem Field.exclude_exclude (field : Field) :
    (field.exclude first).exclude second = field.exclude (first ++ second) := by
  obtain ⟨name, type, title, validation, of, nestedFields⟩ := field
  let keeps (patterns : List Text) (nested : NestedField) : Bool :=
    !excludes patterns (childPath name nested.name)
  have htogether : leftOf (keeps (first ++ second)) nestedFields
      = leftOf (keeps second) (leftOf (keeps first) nestedFields) := by
    simp only [keeps, leftOf_leftOf, excludes_append, Bool.not_or, Bool.and_comm]
  have hsecond (level : Option (List NestedField)) :
      leftOf (keeps second) (level.map (List.map (NestedField.exclude first name)))
        = (leftOf (keeps second) level).map (List.map (NestedField.exclude first name)) := by
    refine leftOf_map ?_ level
    intro nested
    simp only [keeps, NestedField.name_exclude]
  have hbelow (items : List NestedField) :
      (items.map (NestedField.exclude first name)).map (NestedField.exclude second name)
        = items.map (NestedField.exclude (first ++ second) name) := by
    simp only [List.map_map, Function.comp_def, NestedField.exclude_exclude]
  simp only [exclude_eq]
  rw [htogether, hsecond]
  -- An array that the first patterns empty has nothing left for the second ones to look at.
  cases nestedFields with
  | none => rfl
  | some nested =>
    cases hfirst : leftOf (keeps first) (some nested) with
    | none => simp [leftOf]
    | some left =>
      cases hleft : leftOf (keeps second) (some left) with
      | none => simp
      | some kept => simp [hbelow]

end

/-! ### Whole schemas -/

namespace Schema

theorem exclude_exclude (first second : List Text) (schema : Schema) :
    (schema.exclude first).exclude second = schema.exclude (first ++ second) := by
  simp only [exclude, List.filter_map, List.map_map, List.filter_filter, Function.comp_def,
    Field.name_exclude, Field.exclude_exclude, excludes_append, Bool.not_or, Bool.and_comm]

/-- Patterns that match the same paths leave out the same. -/
theorem exclude_congr {first second : List Text} (h : excludes first = excludes second)
    (schema : Schema) : schema.exclude first = schema.exclude second := by
  have hnested : NestedField.exclude first = NestedField.exclude second := by
    funext parent nested
    rw [NestedField.exclude_eq, NestedField.exclude_eq, h]
  have hfield : Field.exclude first = Field.exclude second := by
    funext field
    rw [Field.exclude_eq, Field.exclude_eq, h, hnested]
  rw [exclude, exclude, h, hfield]

/-- The order of patterns does not matter, nor how often they are given. -/
theorem exclude_of_mem_iff {first second : List Text}
    (h : ∀ pattern, pattern ∈ first ↔ pattern ∈ second) (schema : Schema) :
    schema.exclude first = schema.exclude second := by
  refine exclude_congr ?_ schema
  funext path
  rw [Bool.eq_iff_iff]
  simp only [excludes, List.any_eq_true, h]

theorem exclude_nil (schema : Schema) : schema.exclude [] = schema := by
  have hnested (parent : Text) (nested : NestedField) : nested.exclude [] parent = nested :=
    (NestedField.exclude_eq_self_iff []).mpr fun _ _ => rfl
  have hfield (field : Field) : field.exclude [] = field :=
    (Field.exclude_eq_self_iff []).mpr fun nested _ => ⟨rfl, hnested field.name nested⟩
  have hfields : Field.exclude [] = id := funext hfield
  simp [exclude, hfields, excludes]

/-- Leaving fields out step after step is leaving them out by the patterns of all steps. -/
theorem foldl_exclude (rows : List (List Text)) (schema : Schema) :
    rows.foldl (fun schema patterns => schema.exclude patterns) schema
      = schema.exclude rows.flatten := by
  induction rows generalizing schema with
  | nil => exact schema.exclude_nil.symm
  | cons patterns rows ih => rw [List.foldl_cons, ih, exclude_exclude, List.flatten_cons]

end Schema

/-! ### Runs

Hooks that only leave fields out act on nothing but the schema, and have no effects, so a row of
them may be taken together wherever it stands among the others.
-/

section

variable {m : Type → Type} [Monad m] [LawfulMonad m]

theorem Hook.runPre_append (first second : List (Hook m)) (schema : Schema) :
    runPre (first ++ second) schema = runPre first schema >>= runPre second := by
  unfold runPre
  rw [List.filterMap_append, List.foldlM_append]

theorem Hook.runPre_exclusion_cons (patterns : List Text) (hooks : List (Hook m)) (schema : Schema) :
    runPre (exclusion patterns :: hooks) schema = runPre hooks (schema.exclude patterns) := by
  show (pure (schema.exclude patterns) >>= _) = _
  rw [pure_bind]
  rfl

/-- A row of exclusion hooks changes a schema as one of them with all the patterns does. -/
theorem Hook.runPre_exclusions (before after : List (Hook m)) (rows : List (List Text))
    (schema : Schema) :
    runPre (before ++ (rows.map exclusion ++ after)) schema
      = runPre (before ++ exclusion rows.flatten :: after) schema := by
  have hrow (schema : Schema) : runPre (rows.map exclusion ++ after) schema
      = runPre (exclusion rows.flatten :: after) schema := by
    rw [runPre_exclusion_cons, ← Schema.foldl_exclude]
    induction rows generalizing schema with
    | nil => rfl
    | cons patterns rows ih =>
      rw [List.map_cons, List.cons_append, runPre_exclusion_cons, ih]
      rfl
  rw [runPre_append, runPre_append, funext hrow]

/-- A run with a row of exclusion hooks is a run with one of them that has all the patterns. -/
theorem Config.generate_exclusions {ε : Type} (config : Config) (engine : TemplateEngine m ε)
    (before after : List (Hook m)) (rows : List (List Text)) (source : Text) :
    config.generate engine (before ++ (rows.map Hook.exclusion ++ after)) source
      = config.generate engine (before ++ Hook.exclusion rows.flatten :: after) source := by
  have hrows : (rows.map (Hook.exclusion (m := m))).filterMap Hook.post = [] := by
    rw [List.filterMap_map]
    exact List.filterMap_eq_nil_iff.mpr fun _ _ => rfl
  have hpost : (before ++ (rows.map Hook.exclusion ++ after)).filterMap Hook.post
      = (before ++ Hook.exclusion rows.flatten :: after).filterMap Hook.post := by
    rw [List.filterMap_append, List.filterMap_append, List.filterMap_append, hrows]
    rfl
  exact generate_congr_of_runPre config engine (funext (Hook.runPre_exclusions before after rows))
    hpost source

end

/-- **Exclusions compose.**  Leaving fields out by some patterns and then by others gives the same
schema, with the same warnings, as leaving them out by all the patterns at once.  So the order of the
steps does not matter, a step that is repeated changes nothing, and only the patterns that occur
count.  The same holds of any number of steps, and of a run that has them in a row among its hooks:
it is the run with one step in their place, whatever engine it has its templates from. -/
theorem exclusions_compose {m : Type → Type} [Monad m] [LawfulMonad m] {ε : Type} (first second : List Text)
    (schema : Schema) :
    (schema.exclude first).exclude second = schema.exclude (first ++ second)
    ∧ (schema.exclude first).exclude second = (schema.exclude second).exclude first
    ∧ (schema.exclude first).exclude first = schema.exclude first
    ∧ ((∀ pattern, pattern ∈ first ↔ pattern ∈ second) →
        schema.exclude first = schema.exclude second)
    ∧ ∀ rows : List (List Text),
        rows.foldl (fun schema patterns => schema.exclude patterns) schema
          = schema.exclude rows.flatten
        ∧ ∀ (config : Config) (engine : TemplateEngine m ε) (before after : List (Hook m)) (source : Text),
            config.generate engine (before ++ (rows.map Hook.exclusion ++ after)) source
              = config.generate engine (before ++ Hook.exclusion rows.flatten :: after) source := by
  refine ⟨schema.exclude_exclude first second, ?_, ?_, ?_, ?_⟩
  · rw [Schema.exclude_exclude, Schema.exclude_exclude]
    exact schema.exclude_of_mem_iff fun pattern => by simp [or_comm]
  · rw [Schema.exclude_exclude]
    exact schema.exclude_of_mem_iff fun pattern => by simp
  · intro hmem
    exact schema.exclude_of_mem_iff hmem
  · intro rows
    exact ⟨schema.foldl_exclude rows, fun config engine before after source =>
      config.generate_exclusions engine before after rows source⟩

def portfolio : Schema where
  typeName := "portfolio".toList
  fields :=
    [{ name := "gallery".toList, type := "array".toList, of := some "object".toList
       nestedFields := some
        [{ name := "photo".toList, type := "image".toList
           subFields := some [⟨"alt".toList, "string".toList, false⟩] },
          { name := "caption".toList, type := "text".toList }] }]
  warnings := ["a remark".toList]

/-- The array loses its last nested field through two steps together. -/
theorem exclusions_compose_portfolio :
    let captions := ["*.caption".toList]
    let photos := ["gallery.p?oto".toList]
    (∀ pattern, pattern ∈ captions ++ photos ↔ pattern ∈ photos ++ (captions ++ photos))
    ∧ portfolio.exclude (captions ++ photos) = portfolio.exclude (photos ++ (captions ++ photos))
    ∧ (portfolio.exclude captions).fields.map (·.of) = [some "object".toList]
    ∧ (portfolio.exclude photos).fields.map (·.of) = [some "object".toList]
    ∧ (portfolio.exclude captions).exclude photos
      = { portfolio with fields := [{ name := "gallery".toList, type := "array".toList }] } := by
  intro captions photos
  have hmem : ∀ pattern, pattern ∈ captions ++ photos ↔ pattern ∈ photos ++ (captions ++ photos) := by
    intro pattern
    simp only [List.mem_append]
    tauto
  have hsame := @exclusions_compose Id _ _ Empty (captions ++ photos) (photos ++ (captions ++ photos))
    portfolio
  have hboth := @exclusions_compose Id _ _ Empty captions photos portfolio
  refine ⟨hmem, hsame.2.2.2.1 hmem, by decide +kernel, by decide +kernel, ?_⟩
  rw [hboth.1]
  decide +kernel

end GroqSnippets
