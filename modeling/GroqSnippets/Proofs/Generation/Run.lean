/-
What a run does from its beginning to its end.

The theorem below says which phases a run calls, in which order and on what, and what it yields, for
every source, every configuration, any hooks and any engine.  The engine may fail when it is asked
for the directory, and for each query anew: for a query by slug, say, when both other ones have been
formatted and handed to the hooks.  The run then ends there, with what the engine fails with.
-/
import GroqSnippets.Proofs.Generation.Calls
import GroqSnippets.Proofs.Snippet.Plain

namespace GroqSnippets

/-! ### Blank sources -/

theorem blocks_of_isBlank {source : Text} (hblank : source.isBlank = true) :
    fieldPattern.blocks source = [] := by
  refine Pattern.blocksFrom_of_none ?_
  rw [Option.eq_none_iff_forall_ne_some]
  intro found hfound
  have hstart : Cursor.ofText source = Cursor.ofOffset source 0 := rfl
  rw [hstart] at hfound
  obtain ⟨_, _, _, _, hplace, -, -, hmatch, -⟩ := Pattern.exists_split_of_firstInCode? hfound
  obtain ⟨gap, more, hrest, -, -⟩ := Pattern.match?_objectCall.mp hmatch
  have hletter : 'd' ∈ source := by
    refine List.mem_of_mem_drop (i := found.place.offset) ?_
    rw [← Cursor.rest_ofOffset, ← hplace, hrest]
    simp
  exact absurd (List.all_eq_true.mp hblank 'd' hletter) (by decide)

theorem isUnreadable_of_isBlank {source : Text} (hblank : source.isBlank = true) :
    (Reading.ofSource source).schema.isUnreadable = true := by
  simp [Schema.isUnreadable, Reading.ofSource, readFields, blocks_of_isBlank hblank]

/-! ### Snippets

Everything about a run is said of the calls it makes and of the states it goes through.  What the
engine answers may depend on the state, so it is asked in the state in which the calls before it
have left things.
-/

/-- The kinds of query that a schema has, in order. -/
def Schema.kinds (schema : Schema) : List QueryKind :=
  [.single, .list] ++ if ∃ field ∈ schema.fields, field.name = "slug".toList then [.bySlug] else []

section

variable {σ ε : Type} (engine : TemplateEngine (StateM σ) ε) (config : Config)
  (given : List (Hook (StateM σ)))

/-- The snippets for some kinds of query, and the calls that lead to them.  Every query is formatted
in the state that the calls for the one before it left, the first of the post phases is given the
formatted query, and the header of the configuration acts on what the last of them returned. -/
inductive Emitted (directory : Option Text) (schema : Schema) :
    List QueryKind → σ → List (QueryKind × Text) → List Call → σ → Prop where
  | nil (state : σ) : Emitted directory schema [] state [] [] state
  | cons {kind : QueryKind} {kinds : List QueryKind} {formatted last : Text} {calls more : List Call}
      {items : List (QueryKind × Text)} {start middle after stop : σ}
      (hformat : (engine.format config directory (schema.query kind) schema.typeName kind.name).run.run start
        = (.ok formatted, middle))
      (hcalls : Chain (.post kind) (Hook.postPhases given kind) formatted middle calls last after)
      (hmore : Emitted directory schema kinds after items more stop) :
      Emitted directory schema (kind :: kinds) start ((kind, config.headed kind last) :: items)
        (calls ++ more) stop

/-- What comes of a run that reads a schema.  The pre phases are called, one after the other, and
then the queries of the schema that they leave are formatted, as far as the engine goes along. -/
inductive Outcome (read : Schema) (start : σ) :
    List Call → Except (GenerationError ε) Snippets → σ → Prop where
  /-- The directory cannot be looked for. -/
  | refused {schema : Schema} {calls : List Call} {middle stop : σ} {error : ε}
      (hpre : Chain .pre (Hook.prePhases given) read start calls schema middle)
      (hdirectory : (engine.directory? config).run.run middle = (.error error, stop)) :
      Outcome read start calls (.error (.template error)) stop
  /-- A query cannot be formatted, when those in front of it have been. -/
  | stopped {schema : Schema} {preCalls calls : List Call} {front back : List QueryKind} {kind : QueryKind}
      {items : List (QueryKind × Text)} {directory : Option Text} {middle after last stop : σ} {error : ε}
      (hpre : Chain .pre (Hook.prePhases given) read start preCalls schema middle)
      (hdirectory : (engine.directory? config).run.run middle = (.ok directory, after))
      (hkinds : schema.kinds = front ++ kind :: back)
      (hfront : Emitted engine config given directory schema front after items calls last)
      (hformat : (engine.format config directory (schema.query kind) schema.typeName kind.name).run.run last
        = (.error error, stop)) :
      Outcome read start (preCalls ++ calls) (.error (.template error)) stop
  | emitted {schema : Schema} {preCalls calls : List Call} {directory : Option Text} {middle after stop : σ}
      {snippets : Snippets}
      (hpre : Chain .pre (Hook.prePhases given) read start preCalls schema middle)
      (hdirectory : (engine.directory? config).run.run middle = (.ok directory, after))
      (htypeName : snippets.typeName = schema.typeName)
      (hwarnings : snippets.warnings = schema.queries.warnings)
      (hitems : Emitted engine config given directory schema schema.kinds after snippets.items calls stop) :
      Outcome read start (preCalls ++ calls) (.ok snippets) stop

end

/-! ### One kind after the other

The three snippets of a run are made by one and the same step, so a run goes through the kinds of
query that there are and takes the texts it gets apart at the end.
-/

def Schema.snippetsOf (schema : Schema) (texts : List Text) : Snippets where
  typeName := schema.typeName
  single := texts.getD 0 []
  list := texts.getD 1 []
  bySlug := texts[2]?
  warnings := schema.queries.warnings

theorem Schema.items_snippetsOf (schema : Schema) {texts : List Text}
    (hlength : texts.length = schema.kinds.length) :
    (schema.snippetsOf texts).items = schema.kinds.zip texts := by
  unfold kinds at *
  by_cases hslug : ∃ field ∈ schema.fields, field.name = "slug".toList
  · rw [if_pos hslug] at *
    match texts, hlength with
    | [single, list, bySlug], _ => rfl
  · rw [if_neg hslug] at *
    match texts, hlength with
    | [single, list], _ => rfl

theorem Config.snippets_eq {m : Type → Type} [Monad m] [LawfulMonad m] {ε : Type} (config : Config)
    (engine : TemplateEngine m ε) (hooks : List (Hook m)) (schema : Schema) :
    config.snippets engine hooks schema = (do
      let directory ← engine.directory? config
      schema.snippetsOf <$> schema.kinds.mapM fun kind =>
        config.snippet engine directory hooks schema.typeName kind (schema.query kind)) := by
  have hsingle : schema.queries.single = schema.query .single := rfl
  have hlist : schema.queries.list = schema.query .list := rfl
  unfold snippets Schema.kinds
  by_cases hslug : ∃ field ∈ schema.fields, field.name = "slug".toList
  · have hquery : schema.queries.bySlug = some (schema.query .bySlug) :=
      if_pos (schema.hasSlug_iff.mpr hslug)
    simp only [if_pos hslug, hquery, hsingle, hlist, List.cons_append, List.nil_append, List.mapM_cons,
      List.mapM_nil, Option.mapM_some, map_bind, map_pure, bind_map_left, bind_assoc, pure_bind]
    rfl
  · have hquery : schema.queries.bySlug = none := if_neg (mt schema.hasSlug_iff.mp hslug)
    simp only [if_neg hslug, hquery, hsingle, hlist, List.cons_append, List.nil_append, List.mapM_cons,
      List.mapM_nil, Option.mapM_none, map_bind, map_pure, bind_assoc, pure_bind]
    rfl

section

variable {σ ε : Type}

theorem Yields.bind_ok {α β : Type} {start middle stop : σ} {calls more : List Call}
    {written : ExceptT ε (StateT (List Call) (StateM σ)) α} {plain : ExceptT ε (StateM σ) α} {value : α}
    {next : α → ExceptT ε (StateT (List Call) (StateM σ)) β} {plainNext : α → ExceptT ε (StateM σ) β}
    {last : Except ε β}
    (hfirst : Yields written.run plain.run start (.ok value) calls middle)
    (hnext : Yields (next value).run (plainNext value).run middle last more stop) :
    Yields (written >>= next).run (plain >>= plainNext).run start last (calls ++ more) stop := by
  rw [ExceptT.run_bind, ExceptT.run_bind]
  exact hfirst.bind hnext

theorem Yields.bind_error {α β : Type} {start stop : σ} {calls : List Call}
    {written : ExceptT ε (StateT (List Call) (StateM σ)) α} {plain : ExceptT ε (StateM σ) α} {error : ε}
    (next : α → ExceptT ε (StateT (List Call) (StateM σ)) β) (plainNext : α → ExceptT ε (StateM σ) β)
    (hfirst : Yields written.run plain.run start (.error error) calls stop) :
    Yields (written >>= next).run (plain >>= plainNext).run start (.error error) calls stop := by
  rw [ExceptT.run_bind, ExceptT.run_bind, ← List.append_nil calls]
  exact hfirst.bind (Yields.pure _ stop)

theorem Yields.map_ok {α β : Type} {start stop : σ} {calls : List Call}
    {written : ExceptT ε (StateT (List Call) (StateM σ)) α} {plain : ExceptT ε (StateM σ) α}
    {result : Except ε α} (change : α → β) (h : Yields written.run plain.run start result calls stop) :
    Yields (change <$> written).run (change <$> plain).run start (result.map change) calls stop := by
  rw [ExceptT.run_map, ExceptT.run_map]
  exact h.map (Except.map change)

variable (engine : TemplateEngine (StateM σ) ε) (config : Config) (given : List (Hook (StateM σ)))

theorem exists_yields_snippet {directory : Option Text} {typeName query formatted : Text} {kind : QueryKind}
    {start middle : σ}
    (hformat : (engine.format config directory query typeName kind.name).run.run start
      = (.ok formatted, middle)) :
    ∃ last calls stop,
      Yields
        (config.snippet engine.unrecorded directory (config.hooks (Hook.recordAll given)) typeName kind query).run
        (config.snippet engine directory (config.hooks given) typeName kind query).run start
        (.ok (config.headed kind last)) calls stop
      ∧ Chain (.post kind) (Hook.postPhases given kind) formatted middle calls last stop := by
  obtain ⟨last, calls, stop, hyields, hchain⟩ := Yields.exists_runPost given kind formatted middle
  refine ⟨last, calls, stop, ?_, hchain⟩
  unfold Config.snippet
  rw [engine.format_unrecorded, ← List.nil_append calls]
  refine (Yields.unrecorded hformat).bind_ok ?_
  rw [Config.runPost_hooks, Config.runPost_hooks]
  exact (hyields.map (config.headed kind)).map Except.ok

/-- A query that is not formatted ends a run before any post phase is called. -/
theorem yields_snippet_of_error {directory : Option Text} {typeName query : Text} {kind : QueryKind}
    {error : ε} {start stop : σ}
    (hformat : (engine.format config directory query typeName kind.name).run.run start
      = (.error error, stop)) :
    Yields
      (config.snippet engine.unrecorded directory (config.hooks (Hook.recordAll given)) typeName kind query).run
      (config.snippet engine directory (config.hooks given) typeName kind query).run start
      (.error error) [] stop := by
  unfold Config.snippet
  rw [engine.format_unrecorded]
  exact (Yields.unrecorded hformat).bind_error _ _

/-- The kinds are gone through until a query cannot be formatted, or to the end. -/
theorem emitted_or_stopped (directory : Option Text) (schema : Schema) (kinds : List QueryKind) (start : σ) :
    ∃ result calls stop,
      Yields
        (kinds.mapM fun kind => config.snippet engine.unrecorded directory
          (config.hooks (Hook.recordAll given)) schema.typeName kind (schema.query kind)).run
        (kinds.mapM fun kind => config.snippet engine directory (config.hooks given) schema.typeName kind
          (schema.query kind)).run
        start result calls stop
      ∧ ((∃ texts, result = .ok texts ∧ texts.length = kinds.length
            ∧ Emitted engine config given directory schema kinds start (kinds.zip texts) calls stop)
          ∨ ∃ error front kind back items last,
            result = .error error ∧ kinds = front ++ kind :: back
            ∧ Emitted engine config given directory schema front start items calls last
            ∧ (engine.format config directory (schema.query kind) schema.typeName kind.name).run.run last
              = (.error error, stop)) := by
  induction kinds generalizing start with
  | nil => exact ⟨.ok [], [], start, Yields.pure _ start, .inl ⟨[], rfl, rfl, .nil start⟩⟩
  | cons kind kinds ih =>
    obtain ⟨result, middle, hformat⟩ : ∃ result middle,
        (engine.format config directory (schema.query kind) schema.typeName kind.name).run.run start
          = (result, middle) := ⟨_, _, rfl⟩
    cases result with
    | error error =>
      refine ⟨.error error, [], middle, ?_, .inr
        ⟨error, [], kind, kinds, [], start, rfl, rfl, .nil start, hformat⟩⟩
      rw [List.mapM_cons, List.mapM_cons]
      exact (yields_snippet_of_error engine config given hformat).bind_error _ _
    | ok formatted =>
      obtain ⟨last, calls, after, hsnippet, hchain⟩ := exists_yields_snippet engine config given hformat
      obtain ⟨result, more, stop, hmore, hcases⟩ := ih after
      refine ⟨result.map (config.headed kind last :: ·), calls ++ more, stop, ?_, ?_⟩
      · rw [List.mapM_cons, List.mapM_cons]
        refine hsnippet.bind_ok ?_
        rw [bind_pure_comp, bind_pure_comp]
        exact hmore.map_ok (config.headed kind last :: ·)
      · obtain ⟨texts, rfl, hlength, hemitted⟩
          | ⟨error, front, failing, back, items, before, rfl, rfl, hfront, hfails⟩ := hcases
        · exact .inl ⟨config.headed kind last :: texts, rfl, by simp [hlength],
            .cons hformat hchain hemitted⟩
        · exact .inr ⟨error, kind :: front, failing, back, (kind, config.headed kind last) :: items, before,
            rfl, rfl, .cons hformat hchain hfront, hfails⟩

/-! ### Runs

A run on a readable source has three stages: the pre phases, the look for the directory, and the
queries one after the other.  Each stage may be the last, except the first, which cannot fail.
-/

theorem generate_of_readable {m : Type → Type} [Monad m] [LawfulMonad m] {ε : Type} {config : Config}
    {source : Text} (hread : (Reading.ofSource source).schema.isUnreadable = false)
    (engine : TemplateEngine m ε) (hooks : List (Hook m)) :
    config.generate engine hooks source = (do
      let schema ← Hook.runPre hooks (Reading.ofSource source).schema
      let result ← (config.snippets engine (config.hooks hooks) schema).run
      return { notes := (Reading.ofSource source).notes, builtFor := some schema.typeName,
               result := result.mapError .template }) := by
  have hblank : source.isBlank = false := by
    rw [← Bool.not_eq_true]
    intro hblank
    rw [isUnreadable_of_isBlank hblank] at hread
    cases hread
  simp only [Config.generate, hblank, hread, Config.runPre_hooks, Bool.false_eq_true, if_false]

theorem exists_yields_generate {source : Text}
    (hread : (Reading.ofSource source).schema.isUnreadable = false) (start : σ) :
    ∃ generation calls stop,
      Yields (config.generate engine.unrecorded (Hook.recordAll given) source)
        (config.generate engine given source) start generation calls stop
      ∧ Outcome engine config given (Reading.ofSource source).schema start calls generation.result stop := by
  rw [generate_of_readable hread, generate_of_readable hread]
  simp only [Config.snippets_eq, engine.directory?_unrecorded]
  obtain ⟨schema, preCalls, middle, hpre, hpreChain⟩ :=
    Yields.exists_runPre given (Reading.ofSource source).schema start
  obtain ⟨found, after, hdirectory⟩ : ∃ found after,
      (engine.directory? config).run.run middle = (found, after) := ⟨_, _, rfl⟩
  cases found with
  | error error =>
    refine ⟨_, _, after, hpre.bind (((Yields.unrecorded hdirectory).bind_error _ _).bind (Yields.pure _ after)), ?_⟩
    rw [List.append_nil, List.append_nil]
    exact .refused hpreChain hdirectory
  | ok directory =>
    obtain ⟨result, calls, stop, hyields, hcases⟩ := emitted_or_stopped engine config given directory schema
      schema.kinds after
    refine ⟨_, _, stop, hpre.bind (((Yields.unrecorded hdirectory).bind_ok
      (hyields.map_ok schema.snippetsOf)).bind (Yields.pure _ stop)), ?_⟩
    rw [List.nil_append, List.append_nil]
    obtain ⟨texts, rfl, hlength, hemitted⟩
      | ⟨error, front, kind, back, items, last, rfl, hkinds, hfront, hformat⟩ := hcases
    · rw [← schema.items_snippetsOf hlength] at hemitted
      exact .emitted hpreChain hdirectory rfl rfl hemitted
    · exact .stopped hpreChain hdirectory hkinds hfront hformat

variable {engine config given} in
/-- Where nothing can fail, every run that reads a schema makes snippets. -/
theorem Outcome.exists_snippets {read : Schema} {start stop : σ} {calls : List Call}
    {result : Except (GenerationError ε) Snippets}
    (h : Outcome engine config given read start calls result stop) (hpackaged : config.IsPackaged)
    (hfills : isWrapping config.outputFormat = false ∨ engine.InsertsValues) :
    ∃ snippets, result = .ok snippets := by
  cases h with
  | refused hpre hdirectory =>
    rw [engine.directory?_of_isPackaged hpackaged] at hdirectory
    cases hdirectory
  | stopped hpre hdirectory hkinds hfront hformat =>
    rw [engine.directory?_of_isPackaged hpackaged] at hdirectory
    cases hdirectory
    obtain ⟨snippet, hsnippet⟩ := TemplateEngine.InsertsValues.exists_format hfills _ _ _
    rw [hsnippet] at hformat
    cases hformat
  | emitted hpre hdirectory htypeName hwarnings hitems => exact ⟨_, rfl⟩

/-- A run sees no more of its hooks than what their pre phases make of a schema, and the post phases
in order. -/
theorem generate_congr_of_runPre {m : Type → Type} [Monad m] {ε : Type} (config : Config)
    (engine : TemplateEngine m ε) {first second : List (Hook m)}
    (hpre : Hook.runPre first = Hook.runPre second)
    (hpost : first.filterMap (·.post) = second.filterMap (·.post)) (source : Text) :
    config.generate engine first source = config.generate engine second source := by
  have hrunPre : Hook.runPre (config.hooks first) = Hook.runPre (config.hooks second) := by
    funext schema
    rw [Config.runPre_hooks, Config.runPre_hooks, hpre]
  have hposts : (config.hooks first).filterMap (·.post) = (config.hooks second).filterMap (·.post) := by
    unfold Config.hooks
    split
    · exact hpost
    · exact hpost
    · rw [List.filterMap_append, List.filterMap_append, hpost]
  have hsnippet (directory : Option Text) :
      config.snippet engine directory (config.hooks first)
        = config.snippet engine directory (config.hooks second) := by
    funext typeName kind query
    simp only [Config.snippet, Hook.runPost, hposts]
  simp only [Config.generate, Config.snippets, hrunPre, hsnippet]

/-- A run sees no more of its hooks than the pre phases and the post phases, each in order. -/
theorem generate_congr {m : Type → Type} [Monad m] {ε : Type} (config : Config)
    (engine : TemplateEngine m ε) {first second : List (Hook m)}
    (hpre : first.filterMap (·.pre) = second.filterMap (·.pre))
    (hpost : first.filterMap (·.post) = second.filterMap (·.post)) (source : Text) :
    config.generate engine first source = config.generate engine second source := by
  refine generate_congr_of_runPre config engine ?_ hpost source
  funext schema
  rw [Hook.runPre, Hook.runPre, hpre]

/-- **What a run calls and what it yields.**  A run fails for a blank source, and otherwise for one
that nothing can be read from, before it calls anything; and a blank source is one that nothing can
be read from.  Any other run calls the phases of its hooks in order and yields what the last of them
returned, unless the engine fails on the way, which ends the run with the calls made so far.  With
the packaged template no engine that keeps its promise ever does, and with a bare format none at all.
How the phases are spread over hooks makes no difference. -/
theorem generate_calls (source : Text) (start : σ) :
    let read := (Reading.ofSource source).schema
    ∃ generation calls stop,
      Yields (config.generate engine.unrecorded (Hook.recordAll given) source)
        (config.generate engine given source) start generation calls stop
      ∧ (generation.result = .error .emptySource ↔ source.isBlank = true)
      ∧ (generation.result = .error .unreadable ↔ source.isBlank = false ∧ read.isUnreadable = true)
      ∧ (source.isBlank = true → read.isUnreadable = true)
      ∧ (read.isUnreadable = true → calls = [] ∧ stop = start)
      ∧ (read.isUnreadable = false →
          Outcome engine config given read start calls generation.result stop
          ∧ (config.IsPackaged → isWrapping config.outputFormat = false ∨ engine.InsertsValues →
              ∃ snippets, generation.result = .ok snippets))
      ∧ ∀ other : List (Hook (StateM σ)),
          other.filterMap (·.pre) = given.filterMap (·.pre) →
          other.filterMap (·.post) = given.filterMap (·.post) →
          config.generate engine other source = config.generate engine given source := by
  have hcongr (other : List (Hook (StateM σ)))
      (hpre : other.filterMap (·.pre) = given.filterMap (·.pre))
      (hpost : other.filterMap (·.post) = given.filterMap (·.post)) :
      config.generate engine other source = config.generate engine given source :=
    generate_congr config engine hpre hpost source
  by_cases hblank : source.isBlank = true
  · have hread := isUnreadable_of_isBlank hblank
    have hgenerate {m : Type → Type} [Monad m] (engine : TemplateEngine m ε) (hooks : List (Hook m)) :
        config.generate engine hooks source = pure { result := .error .emptySource } := by
      rw [Config.generate, if_pos hblank]
    refine ⟨{ result := .error .emptySource }, [], start, ?_, ?_, ?_, ?_, ?_, ?_, hcongr⟩
    · rw [hgenerate, hgenerate]
      exact Yields.pure _ start
    all_goals simp [hblank, hread]
  · rw [Bool.not_eq_true] at hblank
    by_cases hread : (Reading.ofSource source).schema.isUnreadable = true
    · have hgenerate {m : Type → Type} [Monad m] (engine : TemplateEngine m ε) (hooks : List (Hook m)) :
          config.generate engine hooks source
            = pure { notes := (Reading.ofSource source).notes, result := .error .unreadable } := by
        simp [Config.generate, hblank, hread]
      refine ⟨{ notes := (Reading.ofSource source).notes, result := .error .unreadable }, [], start,
        ?_, ?_, ?_, ?_, ?_, ?_, hcongr⟩
      · rw [hgenerate, hgenerate]
        exact Yields.pure _ start
      all_goals simp [hblank, hread]
    · rw [Bool.not_eq_true] at hread
      obtain ⟨generation, calls, stop, hyields, houtcome⟩ :=
        exists_yields_generate engine config given hread start
      have hresult : generation.result ≠ .error .emptySource
          ∧ generation.result ≠ .error .unreadable := by
        generalize generation.result = result at houtcome
        cases houtcome <;> simp
      refine ⟨generation, calls, stop, hyields, ?_, ?_, ?_, ?_,
        fun _ => ⟨houtcome, houtcome.exists_snippets⟩, hcongr⟩
      all_goals simp [hblank, hread, hresult]

end

/-! ### Two runs -/

def oneField : Text :=
  (r#"name: "p" defineField({ name: "a", type: "b" })"#).toList

def idle : Hook (StateM Unit) where
  pre := some pure
  post := some fun _ => pure

/-- A readable source with the packaged template. -/
theorem generate_calls_oneField :
    (Reading.ofSource oneField).schema.isUnreadable = false
    ∧ ∃ generation calls stop snippets,
      Yields (Config.generate {} (TemplateEngine.ofFound .nothing).unrecorded (Hook.recordAll [idle]) oneField)
        (Config.generate {} (.ofFound .nothing) [idle] oneField) () generation calls stop
      ∧ Outcome (.ofFound .nothing) {} [idle] (Reading.ofSource oneField).schema () calls generation.result stop
      ∧ generation.result = .ok snippets := by
  have hread : (Reading.ofSource oneField).schema.isUnreadable = false := by decide +kernel
  obtain ⟨generation, calls, stop, hyields, -, -, -, -, hreadable, -⟩ :=
    generate_calls (.ofFound .nothing) {} [idle] oneField ()
  obtain ⟨houtcome, hsnippets⟩ := hreadable hread
  obtain ⟨snippets, hresult⟩ := hsnippets (.inl rfl) (.inr (TemplateEngine.insertsValues_ofFound .nothing))
  exact ⟨hread, generation, calls, stop, snippets, hyields, houtcome, hresult⟩

/-- With a template that is no text, the pre phase is called and no post phase. -/
theorem generate_undecodable :
    let engine : TemplateEngine (StateM Unit) TemplateError := .ofFound .undecodable
    let config : Config := { templateDir := some ['t'] }
    let run := ((config.generate engine.unrecorded (Hook.recordAll [idle]) oneField).run []).run ()
    let read := (Reading.ofSource oneField).schema
    oneField.isBlank = false ∧ read.isUnreadable = false
    ∧ run.1.2 = [.pre 0 read read]
    ∧ run.1.1.result = .error (.template .undecodable) := by
  decide +kernel

end GroqSnippets
