/-
What a session shows is sound, whatever has been done in it before.

A session may read, leave fields out, draft and build in any order, on what earlier steps have left.
Two things hold throughout, as long as every schema that is handed over is well formed.  Every schema
that the session holds or shows is well formed.  And queries are always those of a well-formed
schema, with the warnings of this schema and no more of them, however often they are built and
whether or not a draft has been used before.

One lemma says what a single step keeps, with a case for each kind of step.  A step that cannot be
done leaves the session as it is, so the run follows by induction on the steps.
-/
import GroqSnippets.Proofs.Generation.Warnings
import GroqSnippets.Proofs.Session.Reuse
import GroqSnippets.Session

namespace GroqSnippets

/-- Queries are sound if they are those of a well-formed schema, with its warnings alone. -/
def Queries.Sound (queries : Queries) : Prop :=
  ∃ schema : Schema, schema.WF ∧ queries = schema.queries ∧ queries.warnings = schema.warnings

theorem Schema.WF.sound_queries {schema : Schema} (h : schema.WF) : schema.queries.Sound :=
  ⟨schema, h, rfl, h.warnings_queries⟩

theorem Schema.wf_ofHandedOver (source : Option Text) : (Schema.ofHandedOver source).WF := by
  cases source with
  | none => exact ⟨⟨by decide, by decide, by decide⟩, fun _ h => by cases h⟩
  | some source => exact Schema.wf_ofSource source

/-- What is handed over in a step is well formed. -/
def Step.Sound : Step → Prop
  | .take schema => schema.WF
  | _ => True

/-- What a step shows is sound.  A reader and a draft hold the warnings of what they just made. -/
def Answer.Sound : Answer → Prop
  | .schema shown | .excluded shown _ => shown.WF
  | .reread shown held => shown.WF ∧ held = shown.warnings
  | .queries shown => shown.Sound
  | .drafted shown held => shown.Sound ∧ held = shown.warnings
  | _ => True

/-- What comes first has to be done for the whole to be done. -/
theorem exists_of_bind_eq_ok {ε α β : Type} {first : Except ε α} {next : α → Except ε β} {last : β}
    (h : first >>= next = .ok last) : ∃ value, first = .ok value ∧ next value = .ok last := by
  cases first with
  | error error => cases h
  | ok value => exact ⟨value, rfl, h⟩

namespace Session

/-- What a session holds is sound. -/
structure Sound (session : Session) : Prop where
  schema : session.schema.WF
  queries : ∀ queries, session.queries = some queries → queries.Sound
  draft : ∀ draft, session.draft = some draft → draft.schema.WF

theorem sound_new : ({} : Session).Sound where
  schema := Schema.wf_ofHandedOver none
  queries := by
    intro queries h
    cases h
  draft := by
    intro draft h
    cases h

/-- **What a step keeps.**  A step of a sound session leaves a sound session, and shows nothing that
is not. -/
theorem Sound.step {session next : Session} {step : Step} {answer : Answer} (h : session.Sound)
    (hstep : step.Sound) (hnext : session.step step = .ok (next, answer)) :
    next.Sound ∧ answer.Sound := by
  have hschema {schema : Schema} (hwf : schema.WF) : ({ session with schema } : Session).Sound :=
    ⟨hwf, h.queries, h.draft⟩
  cases step with
  | read source =>
    cases hnext
    exact ⟨hschema (Schema.wf_ofHandedOver source), Schema.wf_ofHandedOver source⟩
  | take schema =>
    cases hnext
    exact ⟨hschema hstep, hstep⟩
  | clear =>
    cases hnext
    exact ⟨hschema (Schema.wf_ofHandedOver none), Schema.wf_ofHandedOver none⟩
  | exclude patterns =>
    cases hnext
    exact ⟨hschema (h.schema.exclude patterns), h.schema.exclude patterns⟩
  | compare schema | find name =>
    cases hnext
    exact ⟨h, trivial⟩
  | build =>
    cases hnext
    refine ⟨⟨h.schema, ?_, h.draft⟩, h.schema.sound_queries⟩
    intro queries hqueries
    cases hqueries
    exact h.schema.sound_queries
  | startDraft =>
    cases hnext
    refine ⟨⟨h.schema, h.queries, ?_⟩, trivial⟩
    intro draft hdraft
    cases hdraft
    exact h.schema
  | buildDraft =>
    rw [Session.step] at hnext
    cases hdraft : session.draft with
    | none =>
      rw [hdraft] at hnext
      cases hnext
      exact ⟨h, trivial⟩
    | some draft =>
      have hwf := h.draft draft hdraft
      simp only [hdraft, draft.build_eq] at hnext
      cases hnext
      refine ⟨⟨h.schema, h.queries, ?_⟩, hwf.sound_queries, rfl⟩
      intro other hother
      cases hother
      exact hwf
  | startReader source =>
    cases hnext
    exact ⟨⟨h.schema, h.queries, h.draft⟩, trivial⟩
  | runReader replacement =>
    rw [Session.step] at hnext
    cases hreader : session.reader with
    | none =>
      rw [hreader] at hnext
      cases hnext
      exact ⟨h, trivial⟩
    | some reader =>
      simp only [hreader, Reader.read_eq] at hnext
      cases hnext
      exact ⟨⟨Schema.wf_ofHandedOver _, h.queries, h.draft⟩, Schema.wf_ofHandedOver _, rfl⟩
  | configure given =>
    rw [Session.step] at hnext
    obtain ⟨config, -, hnext⟩ := exists_of_bind_eq_ok hnext
    obtain ⟨formatter, -, hnext⟩ := exists_of_bind_eq_ok hnext
    cases hnext
    exact ⟨⟨h.schema, h.queries, h.draft⟩, trivial⟩
  | format kind =>
    rw [Session.step] at hnext
    split at hnext
    · cases hnext
    · split at hnext
      · cases hnext
        exact ⟨h, trivial⟩
      · obtain ⟨snippet, -, hnext⟩ := exists_of_bind_eq_ok hnext
        cases hnext
        exact ⟨⟨h.schema, h.queries, h.draft⟩, trivial⟩
  | addHeader header kind =>
    rw [Session.step] at hnext
    split at hnext
    · cases hnext
    · cases hnext
      exact ⟨⟨h.schema, h.queries, h.draft⟩, trivial⟩

/-- A sound session shows nothing that is not sound, whether or not its steps can be done. -/
theorem Sound.run {session : Session} (h : session.Sound) {steps : List Step}
    (hsteps : ∀ step ∈ steps, step.Sound) {answer : Answer} (hanswer : .ok answer ∈ session.run steps) :
    answer.Sound := by
  induction steps generalizing session with
  | nil => cases hanswer
  | cons step steps ih =>
    have hmore : ∀ step ∈ steps, step.Sound := fun other hother => hsteps other (List.mem_cons_of_mem _ hother)
    rw [Session.run] at hanswer
    cases hstep : session.step step with
    | error error =>
      simp only [hstep, List.mem_cons, reduceCtorEq, false_or] at hanswer
      exact ih h hmore hanswer
    | ok result =>
      obtain ⟨next, shown⟩ := result
      obtain ⟨hnext, hshown⟩ := h.step (hsteps step List.mem_cons_self) hstep
      simp only [hstep, List.mem_cons, Except.ok.injEq] at hanswer
      rcases hanswer with rfl | hanswer
      · exact hshown
      · exact ih hnext hmore hanswer

/-- **What a run shows.**  Whatever is done in a new session, its answers are sound. -/
theorem sound_of_mem_run {steps : List Step} (hsteps : ∀ step ∈ steps, step.Sound) {answer : Answer}
    (hanswer : .ok answer ∈ ({} : Session).run steps) : answer.Sound :=
  sound_new.run hsteps hanswer

end Session

end GroqSnippets
