/-
Nothing is carried over from one use to the next.

A reader and a draft keep their warnings in one list, which the steps of a reading or of a build
lengthen one by one.  Each step lengthens it by what the step itself has to say, whatever the list
holds already, and says that in the order of the source.  So a use that begins by emptying the list
ends with the warnings of this use alone, and a row of uses answers as a row of new readers or new
drafts would.

What a step has to say is told by the reading and by the queries that keep no list,
`Schema.ofSource` and `Schema.queries`.  One lemma for each step ties the two together.
-/
import GroqSnippets.Proofs.Schema.Duplicates
import GroqSnippets.Query.Draft
import GroqSnippets.Schema.Reader

namespace GroqSnippets

/-- The schema of what is handed over as a source: the empty one, if that is no text. -/
def Schema.ofHandedOver (source : Option Text) : Schema :=
  (source.map Schema.ofSource).getD Schema.empty

/-! ### Readings

The list of warnings is filled while fields are completed, and a reading ends with what is in it.
That the list is empty at the start is all that keeps one reading apart from another, so each step
is told with whatever is already in the list.
-/

namespace Reader

@[simp] theorem warn_nil (reader : Reader) : reader.warn [] = reader := by
  simp [warn]

@[simp] theorem warn_warn (reader : Reader) (first second : List Text) :
    (reader.warn first).warn second = reader.warn (first ++ second) := by
  simp [warn]

/-- Passing over repeated names keeps what a reading without a list keeps, and warns about what it
drops. -/
theorem run_keepFirsts (array : Text) (seen : List Text) (nested : List NestedField)
    (reader : Reader) :
    (keepFirsts array seen nested).run reader
      = ((keepFirstNames seen nested).1,
          reader.warn ((keepFirstNames seen nested).2.map fun item =>
            duplicateWarning item.name array)) := by
  induction nested generalizing seen reader with
  | nil => exact congrArg (Prod.mk []) reader.warn_nil.symm
  | cons item nested ih =>
    rw [keepFirsts, keepFirstNames]
    by_cases htaken : seen.contains item.name = true
    · rw [if_pos htaken, if_pos htaken]
      show (keepFirsts array seen nested).run (reader.warn [duplicateWarning item.name array]) = _
      rw [ih, warn_warn]
      rfl
    · rw [if_neg htaken, if_neg htaken, StateT.run_bind, ih]
      rfl

theorem run_completeField (blocks : NamedBlocks) (field : Field) (reader : Reader) :
    (completeField blocks field).run reader
      = ((field.complete blocks).1,
          reader.warn ((field.complete blocks).2.filterMap Note.warning?)) := by
  rw [completeField, Field.complete]
  by_cases harray : field.isArray = true
  · rw [if_pos harray, if_pos harray]
    cases (blocks.find? field.name).bind memberFields? with
    | none => exact congrArg (Prod.mk field) reader.warn_nil.symm
    | some body =>
      dsimp only
      rw [StateT.run_bind, run_keepFirsts, field.warnings_withMembers body, Field.withMembers,
        keepFirstNames_eq]
      cases firstsOf ((objects body).filterMap declaredNestedField?) with
      | nil => rfl
      | cons first kept => rfl
  · rw [if_neg harray, if_neg harray]
    exact congrArg (Prod.mk field) reader.warn_nil.symm

/-- Completing fields one after the other adds the warnings of each in turn. -/
theorem run_mapM_completeField (blocks : NamedBlocks) (fields : List Field) (reader : Reader) :
    (fields.mapM (completeField blocks)).run reader
      = (fields.map fun field => (field.complete blocks).1,
          reader.warn (fields.flatMap fun field =>
            (field.complete blocks).2.filterMap Note.warning?)) := by
  induction fields generalizing reader with
  | nil => exact congrArg (Prod.mk []) reader.warn_nil.symm
  | cons field fields ih =>
    rw [List.mapM_cons, StateT.run_bind, run_completeField]
    show (fields.mapM (completeField blocks) >>= _).run (reader.warn _) = _
    rw [StateT.run_bind, ih, warn_warn]
    rfl

theorem run_readText (source : Text) (reader : Reader) :
    (readText source).run reader
      = ({ Schema.ofSource source with
            warnings := reader.warnings ++ (Schema.ofSource source).warnings },
          reader.warn (Schema.ofSource source).warnings) := by
  have hwarnings : (Schema.ofSource source).warnings
      = ((fieldPattern.blocks source).filterMap declaredField?).flatMap fun field =>
          (field.complete (.ofBlocks (fieldPattern.blocks source))).2.filterMap Note.warning? := by
    show ((readFields source).flatMap (·.2)).filterMap Note.warning? = _
    rw [List.filterMap_flatMap, readFields, List.flatMap_map]
    rfl
  rw [readText, StateT.run_bind, run_mapM_completeField, ← hwarnings, ← fields_ofSource]
  rfl

/-- **A reading carries nothing over.**  Whatever a reader holds, it answers with the schema of its
source, and holds the warnings of that schema afterwards. -/
theorem read_eq (reader : Reader) :
    reader.read = (Schema.ofHandedOver reader.source,
      { reader with warnings := (Schema.ofHandedOver reader.source).warnings }) := by
  obtain ⟨source, warnings⟩ := reader
  cases source with
  | none => rfl
  | some source => exact run_readText source (reset ⟨some source, warnings⟩)

/-- What may be done with a reader. -/
inductive Use where
  /-- Hands over something as the source. -/
  | assign (source : Option Text)
  | read
deriving DecidableEq, Repr

/-- The answers to a row of uses: for each reading its schema, and the warnings that the reader holds
right after it. -/
def answers (reader : Reader) : List Use → List (Schema × List Text)
  | [] => []
  | .assign source :: uses => answers { reader with source } uses
  | .read :: uses =>
    let (schema, next) := reader.read
    (schema, next.warnings) :: answers next uses

/-- The sources at the moments of reading. -/
def sourcesRead (source : Option Text) : List Use → List (Option Text)
  | [] => []
  | .assign source :: uses => sourcesRead source uses
  | .read :: uses => source :: sourcesRead source uses

theorem answers_eq (reader : Reader) (uses : List Use) :
    reader.answers uses
      = (sourcesRead reader.source uses).map fun source =>
          (Schema.ofHandedOver source, (Schema.ofHandedOver source).warnings) := by
  induction uses generalizing reader with
  | nil => rfl
  | cons use uses ih =>
    cases use with
    | assign source => exact ih { reader with source }
    | read =>
      rw [answers, read_eq]
      exact congrArg _ (ih _)

end Reader

/-! ### Builds -/

namespace Draft

@[simp] theorem warn_nil (draft : Draft) : draft.warn [] = draft := by
  simp [warn]

@[simp] theorem warn_warn (draft : Draft) (first second : List Text) :
    (draft.warn first).warn second = draft.warn (first ++ second) := by
  simp [warn]

/-- Passing over repeated names keeps what a table keeps, and warns about the names that come again. -/
theorem run_keepFirsts (array : Text) (table : NestedTable) (nested : List NestedField)
    (draft : Draft) :
    ∃ repeats, (nested.foldl NestedTable.insert table).repeats = table.repeats ++ repeats
      ∧ (keepFirsts array table.firsts nested).run draft
        = ((nested.foldl NestedTable.insert table).firsts,
            draft.warn (repeats.map (duplicateWarning · array))) := by
  induction nested generalizing table draft with
  | nil => exact ⟨[], (List.append_nil _).symm, congrArg (Prod.mk table.firsts) draft.warn_nil.symm⟩
  | cons item nested ih =>
    rw [List.foldl_cons, keepFirsts]
    by_cases htaken : table.firsts.any (·.name == item.name) = true
    · have hinsert : table.insert item = { table with repeats := table.repeats ++ [item.name] } :=
        if_pos htaken
      obtain ⟨repeats, hrepeats, hrun⟩ := ih (table.insert item)
        (draft.warn [duplicateWarning item.name array])
      rw [hinsert] at hrepeats hrun ⊢
      refine ⟨item.name :: repeats, by simpa using hrepeats, ?_⟩
      rw [if_pos htaken]
      show (keepFirsts array table.firsts nested).run
        (draft.warn [duplicateWarning item.name array]) = _
      rw [hrun, warn_warn]
      rfl
    · have hinsert : table.insert item = { table with firsts := table.firsts ++ [item] } :=
        if_neg htaken
      obtain ⟨repeats, hrepeats, hrun⟩ := ih (table.insert item) draft
      rw [hinsert] at hrepeats hrun ⊢
      exact ⟨repeats, hrepeats, by rw [if_neg htaken, hrun]⟩

theorem run_projectArray (field : Field) (draft : Draft) :
    (projectArray field).run draft
      = (ArrayProjection.ofField field, draft.warn field.repeatWarnings) := by
  rw [projectArray, ArrayProjection.ofField, Field.repeatWarnings]
  cases field.nestedFields.getD [] with
  | nil => exact congrArg (Prod.mk _) draft.warn_nil.symm
  | cons first rest =>
    obtain ⟨repeats, hrepeats, hrun⟩ := run_keepFirsts field.name {} (first :: rest) draft
    dsimp only
    rw [StateT.run_bind, hrun, NestedTable.ofList, hrepeats]
    rfl

/-- Projecting arrays one after the other adds the remarks about each in turn. -/
theorem run_mapM_projectArray (fields : List Field) (draft : Draft) :
    (fields.mapM projectArray).run draft
      = (fields.map ArrayProjection.ofField, draft.warn (fields.flatMap Field.repeatWarnings)) := by
  induction fields generalizing draft with
  | nil => exact congrArg (Prod.mk []) draft.warn_nil.symm
  | cons field fields ih =>
    rw [List.mapM_cons, StateT.run_bind, run_projectArray]
    show (fields.mapM projectArray >>= _).run (draft.warn _) = _
    rw [StateT.run_bind, ih, warn_warn]
    rfl

theorem run_project (draft : Draft) :
    project.run draft
      = (draft.schema.projection,
          draft.warn (draft.schema.arrayFields.flatMap Field.repeatWarnings)) := by
  rw [project, StateT.run_bind]
  show (draft.schema.arrayFields.mapM projectArray >>= _).run draft = _
  rw [StateT.run_bind, run_mapM_projectArray]
  rfl

/-- **A build carries nothing over.**  Whatever a draft holds, it answers with the queries for its
schema, and holds the warnings of these queries afterwards. -/
theorem build_eq (draft : Draft) :
    draft.build = (draft.schema.queries, { draft with warnings := draft.schema.queries.warnings }) := by
  rw [build, buildAfresh, StateT.run_bind]
  show (project >>= _).run draft.reset = _
  rw [StateT.run_bind, run_project]
  rfl

/-- The answers to a number of builds: for each its queries, and the warnings that the draft holds
right after it. -/
def answers (draft : Draft) : (builds : Nat) → List (Queries × List Text)
  | 0 => []
  | builds + 1 =>
    let (queries, next) := draft.build
    (queries, next.warnings) :: answers next builds

theorem answers_eq (draft : Draft) (builds : Nat) :
    draft.answers builds = List.replicate builds (draft.schema.queries, draft.schema.queries.warnings) := by
  induction builds generalizing draft with
  | zero => rfl
  | succ builds ih =>
    rw [answers, build_eq]
    exact congrArg _ (ih _)

end Draft

/-- **What is used again starts afresh.**  A row of uses of one reader answers, for each reading, as a
new reader for the source of that moment does: with the schema of the source, or the empty one if it
is no text, and with the warnings of that schema in the reader.  A draft holds the warnings of its
schema, and every build on it answers with the queries for the schema, and with their warnings in
the draft, as often as it is built. -/
theorem answers_afresh :
    (∀ (reader : Reader) (uses : List Reader.Use),
      reader.answers uses
        = (Reader.sourcesRead reader.source uses).map fun source =>
            (Schema.ofHandedOver source, (Schema.ofHandedOver source).warnings))
    ∧ (∀ source, ({ source } : Reader).read.1 = Schema.ofHandedOver source)
    ∧ ∀ schema : Schema,
      (Draft.ofSchema schema).warnings = schema.warnings
      ∧ ∀ builds, (Draft.ofSchema schema).answers builds
          = List.replicate builds (schema.queries, schema.queries.warnings) := by
  refine ⟨Reader.answers_eq, ?_, ?_⟩
  · intro source
    rw [Reader.read_eq]
  · intro schema
    exact ⟨rfl, Draft.answers_eq (Draft.ofSchema schema)⟩

end GroqSnippets
