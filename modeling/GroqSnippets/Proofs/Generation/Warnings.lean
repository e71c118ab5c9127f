/-
The warnings of a run.

Duplicates are looked for twice: when an array is read, and again when its nested fields are written
into a query.  Both times a warning is added for each that is found.  Reading leaves every array with
one nested field of a name, and leaving fields out cannot bring a name back, so the second look finds
nothing.  A run with the hooks that come with the library therefore ends with the warnings of its
reading, each of them once.
-/
import GroqSnippets.Proofs.Generation.Run
import GroqSnippets.Proofs.Query.Table
import GroqSnippets.Proofs.Schema.WellFormed

namespace GroqSnippets

/-! ### Building queries

Nested names are free of repeats once a source has been read, so what is projected only once was
warned about before, or not at all.
-/

/-- An array of a well-formed schema has nothing that is projected only once. -/
theorem Field.WF.repeatWarnings {field : Field} (h : field.WF) : field.repeatWarnings = [] := by
  have hnodup : ((field.nestedFields.getD []).map (·.name)).Nodup := by
    cases hnested : field.nestedFields with
    | none => exact List.nodup_nil
    | some nested => exact (h.nestedFields nested hnested).2.2.1
  rw [Field.repeatWarnings_eq, repeatsOf_of_nodup hnodup, List.map_nil]

/-- Building queries adds no warning to those of a well-formed schema. -/
theorem Schema.WF.warnings_queries {schema : Schema} (h : schema.WF) :
    schema.queries.warnings = schema.warnings := by
  have hsilent : schema.arrayFields.flatMap Field.repeatWarnings = [] := by
    rw [List.flatMap_eq_nil_iff]
    intro field hfield
    exact (h.fields field (List.mem_filter.mp hfield).1).repeatWarnings
  show schema.warnings ++ schema.arrayFields.flatMap Field.repeatWarnings = schema.warnings
  rw [hsilent, List.append_nil]

/-! ### The hooks that come with the library -/

/-- A hook that comes with the library. -/
inductive StandardHook where
  | exclusion (patterns : List Text)
  | header (text : Text)
deriving DecidableEq, Repr

namespace StandardHook

/-- What a hook does, in any monad. -/
def hook {m : Type → Type} [Monad m] : StandardHook → Hook m
  | exclusion patterns => .exclusion patterns
  | header text => .header text

def change (schema : Schema) : StandardHook → Schema
  | exclusion patterns => schema.exclude patterns
  | header _ => schema

def mark (kind : QueryKind) (snippet : Text) : StandardHook → Text
  | exclusion _ => snippet
  | header text => withHeader text kind snippet

section

variable {m : Type → Type} [Monad m] [LawfulMonad m]

theorem runPre_eq (hooks : List StandardHook) (schema : Schema) :
    Hook.runPre (m := m) (hooks.map hook) schema = pure (hooks.foldl change schema) := by
  unfold Hook.runPre
  induction hooks generalizing schema with
  | nil => rfl
  | cons first hooks ih =>
    cases first with
    | exclusion patterns =>
      show (pure (schema.exclude patterns) >>= _) = _
      rw [pure_bind]
      exact ih (schema.exclude patterns)
    | header text => exact ih schema

theorem runPost_eq (hooks : List StandardHook) (kind : QueryKind) (snippet : Text) :
    Hook.runPost (m := m) (hooks.map hook) kind snippet = pure (hooks.foldl (mark kind) snippet) := by
  unfold Hook.runPost
  induction hooks generalizing snippet with
  | nil => rfl
  | cons first hooks ih =>
    cases first with
    | exclusion patterns => exact ih snippet
    | header text =>
      show (pure (withHeader text kind snippet) >>= _) = _
      rw [pure_bind]
      exact ih (withHeader text kind snippet)

end

/-- The hooks keep a schema well formed, and its warnings as they are. -/
theorem foldl_change {schema : Schema} (h : schema.WF) (hooks : List StandardHook) :
    (hooks.foldl change schema).WF ∧ (hooks.foldl change schema).warnings = schema.warnings := by
  induction hooks generalizing schema with
  | nil => exact ⟨h, rfl⟩
  | cons first hooks ih =>
    cases first with
    | exclusion patterns => exact ih (h.exclude patterns)
    | header text => exact ih h

end StandardHook

/-! ### Runs

The hooks of the library act on one schema or one text at a time, and they neither fail nor have
effects.  So all that the engine is asked for with them is what it would be asked for without any
hooks, on the schema that they leave; the texts are marked when they are there.
-/

section

variable {m : Type → Type} [Monad m] {ε : Type}

/-- The queries of a schema, formatted one after the other. -/
def Config.formatted (config : Config) (engine : TemplateEngine m ε) (schema : Schema) :
    ExceptT ε m (List Text) := do
  let directory ← engine.directory? config
  schema.kinds.mapM fun kind =>
    engine.format config directory (schema.query kind) schema.typeName kind.name

/-- The snippets that hooks make of the formatted queries. -/
def Config.finished (config : Config) (hooks : List StandardHook) (schema : Schema) (texts : List Text) :
    Snippets :=
  schema.snippetsOf (List.zipWith
    (fun kind text => config.headed kind (hooks.foldl (StandardHook.mark kind) text)) schema.kinds texts)

variable [LawfulMonad m]

theorem Config.snippet_standard (config : Config) (engine : TemplateEngine m ε) (hooks : List StandardHook)
    (directory : Option Text) (typeName : Text) (kind : QueryKind) (query : Text) :
    config.snippet engine directory (config.hooks (hooks.map StandardHook.hook)) typeName kind query
      = (fun text => config.headed kind (hooks.foldl (StandardHook.mark kind) text))
        <$> engine.format config directory query typeName kind.name := by
  have hpost (text : Text) :
      (liftM (Hook.runPost (m := m) (config.hooks (hooks.map StandardHook.hook)) kind text) : ExceptT ε m Text)
        = pure (config.headed kind (hooks.foldl (StandardHook.mark kind) text)) := by
    rw [Config.runPost_hooks, StandardHook.runPost_eq, map_pure, liftM_pure]
  unfold Config.snippet
  simp only [hpost, bind_pure_comp]

/-- Changing what each item of a list yields is changing the yield of the list. -/
theorem mapM_map_eq_zipWith {n : Type → Type} [Monad n] [LawfulMonad n] {α β γ : Type} (change : α → β → γ)
    (act : α → n β) (items : List α) :
    (items.mapM fun item => change item <$> act item) = List.zipWith change items <$> items.mapM act := by
  induction items with
  | nil => simp
  | cons item items ih =>
    rw [List.mapM_cons, List.mapM_cons, ih]
    simp only [bind_map_left, map_bind, map_pure, List.zipWith_cons_cons]

/-- Hooks that come with the library act on what is formatted. -/
theorem Config.snippets_standard (config : Config) (engine : TemplateEngine m ε) (hooks : List StandardHook)
    (schema : Schema) :
    config.snippets engine (config.hooks (hooks.map StandardHook.hook)) schema
      = config.finished hooks schema <$> config.formatted engine schema := by
  rw [Config.snippets_eq, formatted, map_bind]
  congr 1
  funext directory
  simp only [Config.snippet_standard, mapM_map_eq_zipWith, Functor.map_map]
  rfl

theorem Config.exists_formatted {config : Config} {engine : TemplateEngine m ε} (hpackaged : config.IsPackaged)
    (hfills : isWrapping config.outputFormat = false ∨ engine.InsertsValues) (schema : Schema) :
    ∃ texts, config.formatted engine schema = pure texts := by
  rw [formatted, engine.directory?_of_isPackaged hpackaged, pure_bind]
  induction schema.kinds with
  | nil => exact ⟨[], rfl⟩
  | cons kind kinds ih =>
    obtain ⟨text, htext⟩ := TemplateEngine.InsertsValues.exists_format hfills (schema.query kind)
      schema.typeName kind.name
    obtain ⟨texts, htexts⟩ := ih
    exact ⟨text :: texts, by rw [List.mapM_cons, htext, htexts, pure_bind, pure_bind]⟩

/-- **Duplicates are reported once.**  A run on a readable source, with hooks that come with the
library, asks the engine for nothing but the formatted queries of the schema that the hooks leave.  If
it gets them, it yields snippets with the warnings of the reading, and else what the engine fails
with; with the packaged template it gets them from every engine that keeps its promise.  The
warnings are one for each nested field that an array leaves out, array after array and item after
item: what an array keeps are the other items of the list that it was completed from. -/
theorem warnings_of_generate (engine : TemplateEngine m ε) (config : Config) (hooks : List StandardHook)
    {source : Text} (hread : (Reading.ofSource source).schema.isUnreadable = false) :
    let blocks := fieldPattern.blocks source
    let named := NamedBlocks.ofBlocks blocks
    let declared := blocks.filterMap declaredField?
    let read := Schema.ofSource source
    let left := hooks.foldl StandardHook.change read
    (∃ finish : List Text → Snippets,
      (∀ texts, (finish texts).warnings = read.warnings)
      ∧ config.generate engine (hooks.map StandardHook.hook) source = (do
          let formatted ← (config.formatted engine left).run
          return { notes := (Reading.ofSource source).notes, builtFor := some left.typeName,
                   result := (formatted.map finish).mapError .template }))
      ∧ (config.IsPackaged → isWrapping config.outputFormat = false ∨ engine.InsertsValues →
          ∃ texts, config.formatted engine left = pure texts)
      ∧ read.warnings
        = declared.flatMap (fun field => (repeatsOf (field.listItems named)).map fun nested =>
            "Duplicate nested field '".toList ++ nested.name ++ "' in '".toList ++ field.name
              ++ "' ignored".toList)
      ∧ read.fields.map (·.nestedFields)
        = declared.map fun field => nonEmpty? (firstsOf (field.listItems named)) := by
  dsimp only
  obtain ⟨hwf, hwarnings⟩ := StandardHook.foldl_change (Schema.wf_ofSource source) hooks
  refine ⟨⟨config.finished hooks (hooks.foldl StandardHook.change (Schema.ofSource source)), ?_, ?_⟩,
    fun hpackaged hfills => Config.exists_formatted hpackaged hfills _, warnings_ofSource source,
    nestedFields_ofSource source⟩
  · intro texts
    exact hwf.warnings_queries.trans hwarnings
  · rw [generate_of_readable hread, StandardHook.runPre_eq, pure_bind, Config.snippets_standard,
      ExceptT.run_map, bind_map_left]
    rfl

end

def threefold : Text :=
  (r#"name:"p" defineField({name:"a",type:"array",of:[{type:"object",fields:["#
    ++ r#"{name:"b",type:"c"},{name:"b",type:"d"},{name:"b",type:"e"}]}]})"#).toList

/-- Two of the three are reported, with the packaged template and whatever is left out. -/
theorem warnings_of_generate_threefold :
    (Reading.ofSource threefold).schema.isUnreadable = false
    ∧ ∃ generation snippets,
      Config.generate {} (.ofFound .nothing)
          ([.exclusion ["a.b".toList], .header "h".toList].map StandardHook.hook) threefold
        = (pure generation : Id (Generation))
      ∧ generation.result = .ok snippets
      ∧ snippets.warnings
        = ["Duplicate nested field 'b' in 'a' ignored".toList,
          "Duplicate nested field 'b' in 'a' ignored".toList] := by
  have hread : (Reading.ofSource threefold).schema.isUnreadable = false := by decide +kernel
  have hread_warnings : (Schema.ofSource threefold).warnings
      = ["Duplicate nested field 'b' in 'a' ignored".toList,
        "Duplicate nested field 'b' in 'a' ignored".toList] := by
    decide +kernel
  obtain ⟨⟨finish, hfinish, hgenerate⟩, hformatted, -, -⟩ :=
    warnings_of_generate (m := Id) (.ofFound .nothing) {} [.exclusion ["a.b".toList], .header "h".toList] hread
  obtain ⟨texts, htexts⟩ := hformatted (.inl rfl) (.inr (TemplateEngine.insertsValues_ofFound .nothing))
  rw [htexts] at hgenerate
  exact ⟨hread, _, finish texts, hgenerate, rfl, (hfinish texts).trans hread_warnings⟩

/-- With a template that is no text there is a run that reports neither of them. -/
theorem undecodable_of_threefold :
    let config : Config := { templateDir := some ['t'] }
    let generation : Generation := Id.run (config.generate (.ofFound .undecodable) [] threefold)
    (Reading.ofSource threefold).schema.isUnreadable = false
    ∧ (Schema.ofSource threefold).warnings.length = 2
    ∧ generation.result = .error (.template .undecodable) := by
  decide +kernel

end GroqSnippets
