import Coverage.Proofs.Course.Keeper
import Coverage.Scenario.Session
/-!
Runs of a monitor or a keeper: it starts, and then takes one step after the other as long as none stops
short. The surroundings may answer every request as they like, so they may change at any time.
-/

namespace Coverage

open Scenario (Subject)

inductive Query where
  | view
  | standing (p : ProductId)
  | status
  | isValid
  | isWarning
  | icon

def Query.Answer : Query → Type
  | view => Assessment
  | standing _ => Standing
  | status => SystemStatus
  | isValid => Bool
  | isWarning => Bool
  | icon => Icon

def Query.ask (m : Monitor) : (query : Query) → Dialogue query.Answer
  | view => .done m.view
  | standing p => do
    let registered ← Dialogue.ask .registered
    return m.standing registered p
  | status => do
    let registered ← Dialogue.ask .registered
    return m.status registered
  | isValid => do
    let registered ← Dialogue.ask .registered
    return m.isValid registered
  | isWarning => do
    let now ← Dialogue.ask .now
    return m.isWarning now
  | icon => do
    let registered ← Dialogue.ask .registered
    let now ← Dialogue.ask .now
    return m.icon registered now

theorem Query.keeps_ask {allowed : Request → Prop} (registered : allowed .registered)
    (now : allowed .now) (m : Monitor) (query : Query) : (query.ask m).Keeps allowed := by
  cases query with
  | view => exact .done _
  | icon => exact .ask registered fun _ => .ask now fun _ => .done _
  | isWarning => exact .ask now fun _ => .done _
  | standing | status | isValid => exact .ask registered fun _ => .done _

/-- A step that does not load, with its exchanges and what becomes of the subject. -/
inductive Quiet : Subject → Trace → Subject → Prop where
  | query {s : Subject} {query : Query} {trace : Trace} {answer : query.Answer}
      (asked : (query.ask s.monitorOf).Yields trace answer) : Quiet s trace s
  | hasEntitlements {k : Keeper} {trace : Trace} {present : Bool}
      (asked : Keeper.hasEntitlements.Yields trace present) : Quiet (.keeper k) trace (.keeper k)
  | push {k k' : Keeper} {trace : Trace} {outcome : Except Failure Push}
      (pushed : k.push.Yields trace (k', outcome)) : Quiet (.keeper k) trace (.keeper k')
  | notify {k k' : Keeper} {trace : Trace} (told : k.notify.Yields trace k') :
      Quiet (.keeper k) trace (.keeper k')
  | addCallback {k : Keeper} (cb : CallbackId) : Quiet (.keeper k) [] (.keeper (k.addCallback cb).1)
  | removeCallback {k : Keeper} (cb : CallbackId) :
      Quiet (.keeper k) [] (.keeper (k.removeCallback cb).1)

/-- Any step. One that loads may stop short. -/
inductive Step : Subject → Trace → Progress Subject → Prop where
  | quiet {s s' : Subject} {trace : Trace} (quiet : Quiet s trace s') : Step s trace (.finished s')
  | loadMonitor {m : Monitor} {trace : Trace} {progress : Progress Monitor}
      (loaded : m.load.Yields trace progress) : Step (.monitor m) trace (progress.map .monitor)
  | load {k : Keeper} {trace : Trace} {progress : Progress Keeper}
      (loaded : k.load.Yields trace progress) : Step (.keeper k) trace (progress.map .keeper)
  | onChange {k : Keeper} {trace : Trace} {progress : Progress Keeper}
      (changed : k.onChange.Yields trace progress) : Step (.keeper k) trace (progress.map .keeper)
  | handleChange {k : Keeper} {source : Source} {trace : Trace} {progress : Progress Keeper}
      (handled : (k.handleChange source).Yields trace progress) :
      Step (.keeper k) trace (progress.map .keeper)
  | forceCheck {k : Keeper} {trace : Trace} {progress : Progress Keeper}
      (checked : k.forceCheck.Yields trace progress) : Step (.keeper k) trace (progress.map .keeper)

/-- A run from the start, with all its exchanges and what becomes of the subject in the end. -/
inductive Run : Trace → Progress Subject → Prop where
  | monitor {settings : Settings} {source : VerdictSource} {trace : Trace}
      {progress : Progress Monitor} (started : (Monitor.start settings source).Yields trace progress) :
      Run trace (progress.map .monitor)
  | keeper {settings : Settings} {source : VerdictSource} {watchers : Watchers} {nesting : Nat}
      {trace : Trace} {progress : Progress Keeper}
      (started : (Keeper.start settings source watchers nesting).Yields trace (.ok progress)) :
      Run trace (progress.map .keeper)
  | step {s : Subject} {trace later : Trace} {progress : Progress Subject}
      (run : Run trace (.finished s)) (next : Step s later progress) : Run (trace ++ later) progress

def Scenario.Subject.fixed : Subject →
    (Settings × VerdictSource) ⊕ ((Settings × VerdictSource) × Watchers × Nat)
  | .monitor m => .inl m.fixed
  | .keeper k => .inr k.fixed

theorem Quiet.fixed {s s' : Subject} {trace : Trace} (quiet : Quiet s trace s') :
    s'.fixed = s.fixed := by
  cases quiet with
  | query asked => rfl
  | hasEntitlements asked => rfl
  | push pushed => exact congrArg Sum.inr (Keeper.yields_push.mp pushed).fixed
  | notify told => exact congrArg Sum.inr (Keeper.notifies_of_yields told).fixed
  | addCallback cb => rfl
  | removeCallback cb => rfl

theorem Step.fixed {s : Subject} {trace : Trace} {progress : Progress Subject}
    (step : Step s trace progress) : progress.state.fixed = s.fixed := by
  cases step with
  | quiet quiet => exact quiet.fixed
  | loadMonitor loaded =>
      rw [Progress.state_map]
      exact congrArg Sum.inl (Monitor.yields_load.mp loaded).fixed
  | load loaded =>
      rw [Progress.state_map]
      exact congrArg Sum.inr (Keeper.yields_load.mp loaded).fixed
  | onChange changed =>
      rw [Progress.state_map]
      exact congrArg Sum.inr (Keeper.fixed_onChange changed)
  | handleChange handled =>
      rw [Progress.state_map]
      exact congrArg Sum.inr (Keeper.yields_handleChange.mp handled).fixed
  | forceCheck checked =>
      rw [Progress.state_map]
      exact congrArg Sum.inr (Keeper.yields_forceCheck.mp checked).fixed

end Coverage
