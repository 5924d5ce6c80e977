import Coverage.Proofs.Answers
import Coverage.Proofs.Classification
import Coverage.Proofs.Reload
/-!
Where an assessment comes from. Only loads change the assessment of a monitor or a keeper: after any run
it is what the findings of the loads so far make of the empty one, in their order.
-/

namespace Coverage

open Scenario (Subject)

theorem Progress.view?_map {σ τ : Type} (viewOf : τ → Assessment) (f : σ → τ)
    (progress : Progress σ) : (progress.map f).view? viewOf = progress.view? fun s => viewOf (f s) := by
  cases progress with
  | finished s => rfl
  | stopped s => rfl

theorem Reloads.derives {m : Monitor} {trace : Trace} {progress : Progress Monitor}
    (reloads : Reloads m trace progress) : Derives m.view trace (progress.view? (·.view)) := by
  induction reloads with
  | idle finds => exact finds.derives
  | load loads => exact loads.derives
  | append before after ihBefore ihAfter => exact ihBefore.append ihAfter

theorem Step.derives {s : Subject} {trace : Trace} {progress : Progress Subject}
    (step : Step s trace progress) :
    Derives s.monitorOf.view trace (progress.view? (·.monitorOf.view)) := by
  have derives := step.reloads.derives
  rw [Progress.view?_map] at derives
  exact derives

theorem Run.derives {trace : Trace} {progress : Progress Subject} (run : Run trace progress) :
    Derives {} trace (progress.view? (·.monitorOf.view)) := by
  obtain ⟨settings, source, reloads⟩ := run.reloads
  have derives := reloads.derives
  rw [Progress.view?_map] at derives
  exact derives

theorem exclusive_empty (p : ProductId) : ({} : Assessment).Exclusive p :=
  ⟨nofun, nofun, nofun, nofun⟩

theorem exclusive_revise {finding : Finding} {view revised : Assessment}
    (exclusive : ∀ p, view.Exclusive p) (same : finding.revise view = some revised) (p : ProductId) :
    revised.Exclusive p := by
  cases finding with
  | noIdentity =>
      cases same
      exact exclusive_empty p
  | noVerdict =>
      cases same
      exact exclusive p
  | judged verdict circumstances => exact (Assessment.classified_of_assess? same).exclusive

theorem exclusive_findings {found : List Finding} {view result : Assessment}
    (exclusive : ∀ p, view.Exclusive p) (folded : found.foldlM Finding.revise view = some result)
    (p : ProductId) : result.Exclusive p := by
  induction found generalizing view with
  | nil =>
      cases folded
      exact exclusive p
  | cons finding later ih =>
      rw [List.foldlM_cons] at folded
      cases same : finding.revise view with
      | none =>
          rw [same] at folded
          cases folded
      | some revised =>
          rw [same] at folded
          exact ih (exclusive_revise exclusive same) folded

/-- After a load without an identity nothing of the assessments before it is left. -/
theorem forgets {before after : List Finding} {view result : Assessment}
    (folded : (before ++ .noIdentity :: after).foldlM Finding.revise view = some result) :
    after.foldlM Finding.revise {} = some result := by
  rw [List.foldlM_append] at folded
  cases first : before.foldlM Finding.revise view with
  | none =>
      rw [first] at folded
      cases folded
  | some dropped =>
      rw [first] at folded
      exact folded

theorem Run.findings_ne_nil {trace : Trace} {progress : Progress Subject} (run : Run trace progress) :
    findings trace ≠ [] := by
  induction run with
  | monitor started =>
      obtain ⟨finding, finds, -⟩ := Monitor.finds_load started
      simp [finds.findings_eq]
  | keeper started =>
      cases Keeper.starts_of_yields started with
      | loaded pushes loaded =>
          obtain ⟨finding, finds, -⟩ := Monitor.finds_load loaded
          simp [(pushes.finds.append finds).findings_eq]
  | step run next ih =>
      obtain ⟨found, finds, -⟩ := run.derives
      obtain ⟨later, finds', -⟩ := next.derives
      rw [(finds.append finds').findings_eq]
      rw [finds.findings_eq] at ih
      intro none
      exact ih (List.append_eq_nil_iff.mp none).1

theorem Keeper.outcome_load (k : Keeper) (answers : (r : Request) → r.Answer) :
    k.load.outcome answers = (k.monitor.load.outcome answers).map fun monitor => { k with monitor } :=
  Dialogue.outcome_bind answers k.monitor.load _

/-- Where the assessment of a monitor or a keeper comes from, and what becomes of it: only loads change
it, the operations load as often as they should, and a load goes by the answers that it gets. -/
structure Provenance (trace : Trace) (s : Subject) : Prop where
  /-- Each further step takes the assessment on by the loads in it. -/
  step : ∀ later next, Step s later next →
    findings (trace ++ later) = findings trace ++ findings later ∧
      (findings later).foldlM Finding.revise s.monitorOf.view = next.view? (·.monitorOf.view)
  quiet : ∀ later s', Quiet s later s' → findings later = [] ∧ s'.monitorOf.view = s.monitorOf.view
  monitor_once : ∀ m, s = .monitor m → ∀ later progress, m.load.Yields later progress →
    (findings later).length = 1
  keeper_once : ∀ k, s = .keeper k → ∀ later progress,
    (k.load.Yields later progress ∨ k.onChange.Yields later progress ∨
      ∃ source, (k.handleChange source).Yields later progress) → (findings later).length = 1
  /-- A check loads once for each change that its polls report. -/
  check : ∀ k, s = .keeper k → ∀ later progress, k.forceCheck.Yields later progress →
    ∃ answers rest, later = polls k.watchers answers Source.all ++ rest ∧
      (findings later).length ≤ (changesIn k.watchers answers Source.all).length ∧
      ∀ k', progress = .finished k' →
        (findings later).length = (changesIn k.watchers answers Source.all).length
  /-- The list of installed products is replaced; the finding, and with it the assessment, is told by the
  answers. -/
  load : ∀ answers, s.monitorOf.load.outcome answers =
    { s.monitorOf with installed := answers .installed }.conclude
      (Monitor.finding answers s.monitorOf.settings s.monitorOf.source)
  within : ∀ k, s = .keeper k → ∀ answers, k.load.outcome answers =
    (k.monitor.load.outcome answers).map fun monitor => { k with monitor }
  /-- Once a load finds no identity, only what later loads find counts. -/
  forgets : ∀ before after, findings trace = before ++ .noIdentity :: after →
    after.foldlM Finding.revise {} = some s.monitorOf.view
  exclusive : ∀ p, s.monitorOf.view.bucketCount p ≤ 1

theorem Finds.findings_length {trace : Trace} (found : ∃ finding, Finds trace [finding]) :
    (findings trace).length = 1 := by
  obtain ⟨finding, finds⟩ := found
  rw [finds.findings_eq]
  rfl

theorem Run.provenance {trace : Trace} {s : Subject} (run : Run trace (.finished s)) :
    Provenance trace s where
  step later next step := by
    obtain ⟨found, finds, -⟩ := run.derives
    obtain ⟨found', finds', -⟩ := step.derives
    refine ⟨?_, step.derives.findings⟩
    rw [(finds.append finds').findings_eq, finds.findings_eq, finds'.findings_eq]
  quiet later s' quiet := by
    obtain ⟨silent, monitor⟩ := quiet.finds
    exact ⟨silent.findings_eq, congrArg Monitor.view monitor⟩
  monitor_once m same later progress loaded := by
    obtain ⟨finding, finds, -⟩ := Monitor.finds_load loaded
    exact Finds.findings_length ⟨finding, finds⟩
  keeper_once k same later progress operated := by
    apply Finds.findings_length
    rcases operated with loaded | changed | ⟨source, handled⟩
    · exact (Keeper.yields_load.mp loaded).finds
    · exact Keeper.finds_onChange changed
    · exact (Keeper.yields_handleChange.mp handled).finds
  check k same later progress checked := by
    obtain ⟨answers, rest, found, polled, finds, bound⟩ := (Keeper.yields_forceCheck.mp checked).finds
    rw [← finds.findings_eq] at bound
    exact ⟨answers, rest, polled, bound⟩
  load answers := Monitor.outcome_load answers s.monitorOf
  within k same answers := k.outcome_load answers
  forgets before after split := by
    have folded := run.derives.findings
    rw [split] at folded
    exact forgets folded
  exclusive p := by
    have exclusive := exclusive_findings exclusive_empty run.derives.findings p
    exact exclusive.bucketCount_le_one

/-- After any run the assessment is what the loads so far have made of the empty one, in their order, and
so it stays with every further step. -/
theorem run_provenance {trace : Trace} {progress : Progress Subject} (run : Run trace progress) :
    findings trace ≠ [] ∧
      (findings trace).foldlM Finding.revise {} = progress.view? (·.monitorOf.view) ∧
      ∀ s, progress = .finished s → Provenance trace s := by
  refine ⟨run.findings_ne_nil, run.derives.findings, ?_⟩
  intro s finished
  subst finished
  exact run.provenance

def coveredWorld : Scenario.World where
  now := Assessment.midnight 200
  installed := .ofList [(⟨"covered"⟩, .ofId ⟨"covered"⟩)]
  consumer := some ⟨1⟩
  verdict := .ok (some { compliant := .ofList [(⟨"covered"⟩, [])] })

def unregisteredWorld : Scenario.World := { coveredWorld with registered := false }

def coveredMonitor : Monitor :=
  ((Monitor.start {} .authority).run Scenario.World.answer coveredWorld).1.state

def coveredKeeper : Keeper where
  monitor := coveredMonitor
  watchers := { entitlements := some "pool" }
  nesting := 0
  lastPush := .updated

def droppingWorld : Scenario.World := { unregisteredWorld with tripped := ["pool"] }

def droppedKeeper : Keeper := (coveredKeeper.forceCheck.run Scenario.World.answer droppingWorld).1.state

def checkedTrace : Trace :=
  (Keeper.start {} .authority coveredKeeper.watchers 0).record Scenario.World.answer coveredWorld ++
    coveredKeeper.forceCheck.record Scenario.World.answer droppingWorld

theorem run_provenance_dropped :
    Run checkedTrace (.finished (.keeper droppedKeeper)) ∧
      coveredKeeper.monitor.view.standing ⟨"covered"⟩ = .subscribed ∧
      (findings checkedTrace).length = 2 ∧
      (findings checkedTrace).foldlM Finding.revise {} = some droppedKeeper.monitor.view ∧
      droppedKeeper.monitor.view = {} ∧ droppedKeeper.monitor.view.bucketCount ⟨"covered"⟩ ≤ 1 ∧
      (findings (droppedKeeper.load.record Scenario.World.answer coveredWorld)).length = 1 := by
  have outcome : ((Keeper.start {} .authority coveredKeeper.watchers 0).run Scenario.World.answer
      coveredWorld).1 = .ok (.finished coveredKeeper) := rfl
  have started := Program.yields_record Scenario.World.answer
    (Keeper.start {} .authority coveredKeeper.watchers 0) coveredWorld
  rw [outcome] at started
  have checked : Run checkedTrace (.finished (.keeper droppedKeeper)) :=
    .step (.keeper started)
      (.forceCheck (Program.yields_record Scenario.World.answer coveredKeeper.forceCheck droppingWorld))
  have ⟨_, folded, finished⟩ := run_provenance checked
  have provenance := finished _ rfl
  have lost : findings checkedTrace = (findings checkedTrace).dropLast ++ [.noIdentity] := rfl
  have empty : {} = droppedKeeper.monitor.view := Option.some.inj (provenance.forgets _ [] lost)
  have loaded := Program.yields_record Scenario.World.answer droppedKeeper.load coveredWorld
  have once := provenance.keeper_once droppedKeeper rfl _ _ (.inl loaded)
  exact ⟨checked, by decide +kernel, rfl, folded, empty.symm, provenance.exclusive ⟨"covered"⟩, once⟩

end Coverage
