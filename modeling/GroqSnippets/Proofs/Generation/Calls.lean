/-
Which phases a run calls, and what comes of it.

To say what a run calls, its hooks are made to write their calls down: what the phase was given,
what it returned, and the place of its hook among those that were given.  Hooks and the engine may
remember whatever they like between their calls, and may share what they remember, so they are
functions of a state of any type.  Writing calls down changes nothing else about a run.

What a run does is told by relations that follow it state by state: from the state that one call
leaves, the next one is made.  A call is a function of its state, so there is only one way to go on
from any state, and the relations leave no choice open.
-/
import Mathlib.Control.Lawful
import GroqSnippets.Generation
import GroqSnippets.Proofs.Source.Block

namespace GroqSnippets

/-! ### Calls

A hook has two phases, and each may be missing.  What a run calls is told by the hook's place among
those that are given, so hooks that do the same are still told apart.
-/

/-- A call of a phase, before the queries are built or after one of them is formatted: the place of
its hook among those that are given, what the phase was given, and what it returned. -/
inductive Call where
  | pre (place : Nat) (given returned : Schema)
  | post (kind : QueryKind) (place : Nat) (given returned : Text)
deriving DecidableEq, Repr

/-- Calls of phases, one after the other.  Each phase is given what the one before it returned, in
the state that the one before it left. -/
inductive Chain {σ α : Type} (call : Nat → α → α → Call) :
    List (Nat × (α → StateM σ α)) → α → σ → List Call → α → σ → Prop where
  | nil (value : α) (state : σ) : Chain call [] value state [] value state
  | cons {place : Nat} {act : α → StateM σ α} {phases : List (Nat × (α → StateM σ α))}
      {given returned last : α} {start middle stop : σ} {calls : List Call}
      (hcall : (act given).run start = (returned, middle))
      (hmore : Chain call phases returned middle calls last stop) :
      Chain call ((place, act) :: phases) given start (call place given returned :: calls) last stop

section

variable {m : Type → Type} [Monad m]

/-- A phase whose calls are written down. -/
def recorded {α : Type} (note : α → α → Call) (act : α → m α) (given : α) :
    StateT (List Call) m α := do
  let returned ← act given
  modify (· ++ [note given returned])
  return returned

namespace Hook

/-- A hook whose calls are written down. -/
def record (place : Nat) (hook : Hook m) : Hook (StateT (List Call) m) where
  pre := hook.pre.map fun act => recorded (.pre place) act
  post := hook.post.map fun act kind => recorded (.post kind place) (act kind)

/-- Hooks whose calls are written down. -/
def recordAll (hooks : List (Hook m)) : List (Hook (StateT (List Call) m)) :=
  hooks.zipIdx.map fun (hook, place) => hook.record place

def prePhases (hooks : List (Hook m)) : List (Nat × (Schema → m Schema)) :=
  hooks.zipIdx.filterMap fun (hook, place) => hook.pre.map (place, ·)

def postPhases (hooks : List (Hook m)) (kind : QueryKind) : List (Nat × (Text → m Text)) :=
  hooks.zipIdx.filterMap fun (hook, place) => hook.post.map fun act => (place, act kind)

/-- What is picked from each item of a list, with its place or without. -/
theorem filterMap_zipIdx {α β : Type} (pick : α → Option β) (items : List α) (first : Nat) :
    (items.zipIdx first).filterMap (fun (item, _) => pick item) = items.filterMap pick := by
  conv_rhs => rw [← List.zipIdx_map_fst first items, List.filterMap_map]
  rfl

omit [Monad m] in
theorem map_prePhases (hooks : List (Hook m)) :
    (prePhases hooks).map (·.2) = hooks.filterMap (·.pre) := by
  rw [prePhases, List.map_filterMap, ← filterMap_zipIdx _ hooks 0]
  simp [Option.map_map, Function.comp_def]

omit [Monad m] in
theorem map_postPhases (hooks : List (Hook m)) (kind : QueryKind) :
    (postPhases hooks kind).map (·.2) = (hooks.filterMap (·.post)).map (· kind) := by
  rw [postPhases, List.map_filterMap, List.map_filterMap, ← filterMap_zipIdx _ hooks 0]
  simp [Option.map_map, Function.comp_def]

theorem runPre_eq (hooks : List (Hook m)) (schema : Schema) :
    runPre hooks schema = (prePhases hooks).foldlM (fun schema (_, act) => act schema) schema := by
  rw [runPre, ← map_prePhases, List.foldlM_map]

theorem runPost_eq (hooks : List (Hook m)) (kind : QueryKind) (snippet : Text) :
    runPost hooks kind snippet
      = (postPhases hooks kind).foldlM (fun snippet (_, act) => act snippet) snippet := by
  have hmap : ((hooks.filterMap (·.post)).map (· kind)).foldlM (fun snippet act => act snippet) snippet
      = runPost hooks kind snippet := List.foldlM_map ..
  rw [← hmap, ← map_postPhases, List.foldlM_map]

theorem runPre_recordAll (hooks : List (Hook m)) (schema : Schema) :
    runPre (recordAll hooks) schema
      = (prePhases hooks).foldlM (fun schema (place, act) => recorded (.pre place) act schema)
        schema := by
  have hphases : (recordAll hooks).filterMap (·.pre)
      = (prePhases hooks).map fun (place, act) => recorded (.pre place) act := by
    rw [recordAll, prePhases, List.filterMap_map, List.map_filterMap]
    refine List.filterMap_congr ?_
    rintro ⟨hook, place⟩ -
    simp [record, Option.map_map, Function.comp_def]
  rw [runPre, hphases, List.foldlM_map]

theorem runPost_recordAll (hooks : List (Hook m)) (kind : QueryKind) (snippet : Text) :
    runPost (recordAll hooks) kind snippet
      = (postPhases hooks kind).foldlM
        (fun snippet (place, act) => recorded (.post kind place) act snippet) snippet := by
  have hphases : ((recordAll hooks).filterMap (·.post)).map (· kind)
      = (postPhases hooks kind).map fun (place, act) => recorded (.post kind place) act := by
    rw [recordAll, postPhases, List.filterMap_map, List.map_filterMap, List.map_filterMap]
    refine List.filterMap_congr ?_
    rintro ⟨hook, place⟩ -
    simp [record, Option.map_map, Function.comp_def]
  have hmap : (((recordAll hooks).filterMap (·.post)).map (· kind)).foldlM (fun snippet act => act snippet)
      snippet = runPost (recordAll hooks) kind snippet := List.foldlM_map ..
  rw [← hmap, hphases, List.foldlM_map]

end Hook

/-! ### The header

The header is a hook at the end of the row and no call of anything that is given.  So it is taken
out of the row, and put in front of what the given hooks leave.
-/

/-- A snippet with the header of a configuration in front, if it has one. -/
def Config.headed (config : Config) (kind : QueryKind) (snippet : Text) : Text :=
  match config.header with
  | none | some [] => snippet
  | some header => withHeader header kind snippet

/-- A header is there, and a hook for it, or neither is. -/
theorem Config.hooks_cases (config : Config) (given : List (Hook m)) :
    config.hooks given = given ∧ config.headed = (fun _ snippet => snippet)
      ∨ ∃ header, config.hooks given = given ++ [.header header]
        ∧ config.headed = withHeader header := by
  unfold hooks headed
  cases config.header with
  | none => exact .inl ⟨rfl, rfl⟩
  | some header =>
    cases header with
    | nil => exact .inl ⟨rfl, rfl⟩
    | cons c header => exact .inr ⟨c :: header, rfl, rfl⟩

theorem Config.runPre_hooks (config : Config) (given : List (Hook m)) (schema : Schema) :
    Hook.runPre (config.hooks given) schema = Hook.runPre given schema := by
  obtain ⟨hhooks, -⟩ | ⟨header, hhooks, -⟩ := config.hooks_cases given
  · rw [hhooks]
  · rw [hhooks, Hook.runPre, Hook.runPre, List.filterMap_append]
    simp [Hook.header]

/-- The header acts on what the given hooks leave. -/
theorem Config.runPost_hooks [LawfulMonad m] (config : Config) (given : List (Hook m))
    (kind : QueryKind) (snippet : Text) :
    Hook.runPost (config.hooks given) kind snippet
      = config.headed kind <$> Hook.runPost given kind snippet := by
  obtain ⟨hhooks, hheaded⟩ | ⟨header, hhooks, hheaded⟩ := config.hooks_cases given
  · rw [hhooks, hheaded, id_map']
  · rw [hhooks, hheaded, Hook.runPost, Hook.runPost, List.filterMap_append, List.foldlM_append,
      map_eq_pure_bind]
    simp [Hook.header]

end

/-! ### Runs that write down and runs that do not

Writing calls down must not change what is called.  So the two runs are compared: from the same
state they come to the same value and to the same state, and the calls are what one of them has
besides.
-/

section

variable {σ : Type}

/-- From a state, a computation that writes calls down yields a value, calls and a state, and the
one that writes nothing down yields the same value and state. -/
structure Yields {α : Type} (written : StateT (List Call) (StateM σ) α) (plain : StateM σ α)
    (start : σ) (value : α) (calls : List Call) (stop : σ) : Prop where
  run_written : ∀ log, (written.run log).run start = ((value, log ++ calls), stop)
  run_plain : plain.run start = (value, stop)

namespace Yields

variable {α β : Type} {start middle stop : σ} {calls more : List Call}

theorem pure (value : α) (start : σ) :
    Yields (Pure.pure value) (Pure.pure value) start value [] start where
  run_written := by
    intro log
    rw [List.append_nil]
    rfl
  run_plain := rfl

theorem bind {written : StateT (List Call) (StateM σ) α} {plain : StateM σ α} {value : α}
    {next : α → StateT (List Call) (StateM σ) β} {plainNext : α → StateM σ β} {last : β}
    (hfirst : Yields written plain start value calls middle)
    (hnext : Yields (next value) (plainNext value) middle last more stop) :
    Yields (written >>= next) (plain >>= plainNext) start last (calls ++ more) stop where
  run_written := by
    intro log
    have hrun := hnext.run_written (log ++ calls)
    rw [List.append_assoc] at hrun
    rw [StateT.run_bind, StateT.run_bind, hfirst.run_written]
    exact hrun
  run_plain := by
    rw [StateT.run_bind, hfirst.run_plain]
    exact hnext.run_plain

theorem map {written : StateT (List Call) (StateM σ) α} {plain : StateM σ α} {value : α}
    (change : α → β) (h : Yields written plain start value calls stop) :
    Yields (change <$> written) (change <$> plain) start (change value) calls stop := by
  have hbind : Yields (written >>= fun value => Pure.pure (change value))
      (plain >>= fun value => Pure.pure (change value)) start (change value) (calls ++ []) stop :=
    h.bind (Yields.pure (change value) stop)
  rwa [List.append_nil, bind_pure_comp, bind_pure_comp] at hbind

/-- A phase writes its one call down. -/
theorem recorded (note : α → α → Call) (act : α → StateM σ α) (given : α) (start : σ) :
    let result := (act given).run start
    Yields (GroqSnippets.recorded note act given) (act given) start result.1
      [note given result.1] result.2 where
  run_written := by
    intro log
    rfl
  run_plain := rfl

/-- Phases that are run one after the other leave a chain of calls behind. -/
theorem exists_foldlM (note : Nat → α → α → Call) (phases : List (Nat × (α → StateM σ α))) (given : α)
    (start : σ) :
    ∃ last calls stop,
      Yields
        (phases.foldlM (fun value (place, act) => GroqSnippets.recorded (note place) act value) given)
        (phases.foldlM (fun value (_, act) => act value) given) start last calls stop
      ∧ Chain note phases given start calls last stop := by
  induction phases generalizing given start with
  | nil => exact ⟨given, [], start, .pure given start, .nil given start⟩
  | cons phase phases ih =>
    obtain ⟨place, act⟩ := phase
    let result := (act given).run start
    obtain ⟨last, calls, stop, hmore, hchain⟩ := ih result.1 result.2
    exact ⟨last, note place given result.1 :: calls, stop,
      (Yields.recorded (note place) act given start).bind hmore, .cons rfl hchain⟩

theorem exists_runPre (given : List (Hook (StateM σ))) (schema : Schema) (start : σ) :
    ∃ last calls stop,
      Yields (Hook.runPre (Hook.recordAll given) schema) (Hook.runPre given schema) start last calls
        stop
      ∧ Chain .pre (Hook.prePhases given) schema start calls last stop := by
  rw [Hook.runPre_recordAll, Hook.runPre_eq]
  exact exists_foldlM .pre (Hook.prePhases given) schema start

theorem exists_runPost (given : List (Hook (StateM σ))) (kind : QueryKind) (snippet : Text)
    (start : σ) :
    ∃ last calls stop,
      Yields (Hook.runPost (Hook.recordAll given) kind snippet) (Hook.runPost given kind snippet)
        start last calls stop
      ∧ Chain (.post kind) (Hook.postPhases given kind) snippet start calls last stop := by
  rw [Hook.runPost_recordAll, Hook.runPost_eq]
  exact exists_foldlM (.post kind) (Hook.postPhases given kind) snippet start

end Yields

end

/-! ### Engines

Only hooks write calls down.  An engine is carried over to the monad of hooks that do, where it does
what it did before; and so is everything that is made of its answers.
-/

section

variable {m : Type → Type} [Monad m] {ε : Type}

/-- A computation among hooks that write their calls down, where it writes nothing down itself. -/
def unrecorded {α : Type} (computation : ExceptT ε m α) : ExceptT ε (StateT (List Call) m) α :=
  ExceptT.mk (StateT.lift computation.run)

/-- An engine among hooks that write their calls down. -/
def TemplateEngine.unrecorded (engine : TemplateEngine m ε) : TemplateEngine (StateT (List Call) m) ε where
  isDirectory path := GroqSnippets.unrecorded (engine.isDirectory path)
  find? directory := GroqSnippets.unrecorded (engine.find? directory)
  fill template values := GroqSnippets.unrecorded (engine.fill template values)

variable [LawfulMonad m]

theorem unrecorded_pure {α : Type} (value : α) :
    unrecorded (pure value : ExceptT ε m α) = pure value := by
  apply ExceptT.ext
  apply StateT.ext
  intro log
  simp [unrecorded]

theorem unrecorded_bind {α β : Type} (first : ExceptT ε m α) (next : α → ExceptT ε m β) :
    unrecorded (first >>= next) = unrecorded first >>= fun value => unrecorded (next value) := by
  apply ExceptT.ext
  apply StateT.ext
  intro log
  simp only [unrecorded, ExceptT.run_bind, ExceptT.run_mk, StateT.run_lift, StateT.run_bind, bind_assoc,
    pure_bind]
  congr 1
  funext result
  cases result <;> simp

namespace TemplateEngine

variable (engine : TemplateEngine m ε) (config : Config)

theorem directory?_unrecorded :
    engine.unrecorded.directory? config = GroqSnippets.unrecorded (engine.directory? config) := by
  unfold directory?
  split
  · rw [unrecorded_pure]
  · rw [unrecorded_pure]
  · rw [unrecorded_bind]
    simp only [unrecorded_pure]
    rfl

theorem template_unrecorded (directory : Option Text) :
    engine.unrecorded.template directory = GroqSnippets.unrecorded (engine.template directory) := by
  cases directory with
  | none => rw [template, template, unrecorded_pure]
  | some directory =>
    rw [template, template, unrecorded_bind]
    simp only [unrecorded_pure]
    rfl

theorem format_unrecorded (directory : Option Text) (query typeName kind : Text) :
    engine.unrecorded.format config directory query typeName kind
      = GroqSnippets.unrecorded (engine.format config directory query typeName kind) := by
  unfold format formatAs
  split
  · rw [unrecorded_bind, template_unrecorded]
    rfl
  · rw [unrecorded_pure]

end TemplateEngine

/-- A computation that writes nothing down yields no calls. -/
theorem Yields.unrecorded {σ ε α : Type} {computation : ExceptT ε (StateM σ) α} {start stop : σ}
    {result : Except ε α} (h : computation.run.run start = (result, stop)) :
    Yields (GroqSnippets.unrecorded computation).run computation.run start result [] stop where
  run_written := by
    intro log
    rw [List.append_nil, GroqSnippets.unrecorded, ExceptT.run_mk, StateT.run_lift, StateT.run_bind, h]
    rfl
  run_plain := h

end

end GroqSnippets
