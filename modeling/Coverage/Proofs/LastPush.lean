import Coverage.Proofs.Opening
/-!
What a keeper remembers of its pushes. The attempts are read off the exchanges of a run: one at the start,
one for each push that is asked for, and one after each refresh of the products. The outcome that is kept
is that of the latest attempt that did not fail. A failed attempt leaves it as it was, so it is the outcome
of the latest attempt only if that attempt did not fail.
-/

namespace Coverage

open Scenario (Subject)

/-- What an attempt to push the products came to: nothing was to be sent, or this came of sending. -/
inductive Attempt where
  | unsent
  | sent (answer : Except Failure Unit)

namespace Attempt

def Made (settings : Settings) (trace : Trace) : Attempt → Prop
  | unsent => Unsent settings trace
  | sent answer => Sent settings trace answer

def outcome : Attempt → Except Failure Push
  | unsent => .ok .skipped
  | sent answer => pushOutcome answer

def Fails (attempt : Attempt) : Prop :=
  ∃ failure, attempt = .sent (.error failure) ∧ failure.isAuthFailure = false

variable {settings : Settings} {trace : Trace} {attempt : Attempt}

theorem outcome_eq_error {failure : Failure} : attempt.outcome = .error failure ↔
    attempt = .sent (.error failure) ∧ failure.isAuthFailure = false := by
  cases attempt with
  | unsent => simp [outcome]
  | sent answer => simp [outcome, pushOutcome_eq_error]

theorem fails_of_outcome {failure : Failure} (failed : attempt.outcome = .error failure) :
    attempt.Fails :=
  ⟨failure, outcome_eq_error.mp failed⟩

theorem not_fails_of_outcome {push : Push} (kept : attempt.outcome = .ok push) : ¬attempt.Fails := by
  rintro ⟨failure, failed⟩
  rw [outcome_eq_error.mpr failed] at kept
  cases kept

theorem outcome_eq_updated : attempt.outcome = .ok .updated ↔ attempt = .sent (.ok ()) := by
  cases attempt with
  | unsent => simp [outcome]
  | sent answer => simp [outcome, pushOutcome_eq_updated]

theorem Made.append (made : attempt.Made settings trace) (later : Trace) :
    attempt.Made settings (trace ++ later) := by
  have front : trace <+: trace ++ later := List.prefix_append trace later
  cases attempt with
  | unsent =>
      cases made with
      | off setting => exact .off setting
      | unregistered first => exact .unregistered (first.trans front)
      | noConsumer first => exact .noConsumer (first.trans front)
  | sent answer =>
      obtain ⟨setting, consumer, installed, sending, sends, first⟩ := made
      exact ⟨setting, consumer, installed, sending, sends, first.trans front⟩

theorem Made.unique {other : Attempt} (made : attempt.Made settings trace)
    (also : other.Made settings trace) : attempt = other := by
  cases attempt with
  | unsent =>
      cases other with
      | unsent => rfl
      | sent answer => exact absurd also (Unsent.not_sent made)
  | sent answer =>
      cases other with
      | unsent => exact absurd made (Unsent.not_sent also)
      | sent other => exact congrArg sent (Sent.unique made also)

theorem exists_of_settles {pushed : Except Failure Push} (settles : Settles settings trace pushed) :
    ∃ attempt : Attempt, attempt.Made settings trace ∧ attempt.outcome = pushed := by
  cases settles with
  | unsent unsent => exact ⟨.unsent, unsent, rfl⟩
  | sent sent => exact ⟨.sent _, sent, rfl⟩

end Attempt

inductive Attempts (settings : Settings) : Trace → List Attempt → Prop where
  | nil : Attempts settings [] []
  | refresh {later : Trace} {attempt : Attempt} {attempts : List Attempt}
      (made : attempt.Made settings later) (rest : Attempts settings later attempts) :
      Attempts settings (⟨.refreshProducts, ()⟩ :: later) (attempt :: attempts)
  | other {exchange : Exchange Request Request.Answer} {later : Trace} {attempts : List Attempt}
      (other : exchange.request ≠ .refreshProducts) (rest : Attempts settings later attempts) :
      Attempts settings (exchange :: later) attempts

namespace Attempts

variable {settings : Settings} {trace later : Trace} {attempts more : List Attempt}

theorem append (first : Attempts settings trace attempts) (second : Attempts settings later more) :
    Attempts settings (trace ++ later) (attempts ++ more) := by
  induction first with
  | nil => exact second
  | refresh made _ ih => exact .refresh (made.append later) ih
  | other other _ ih => exact .other other ih

theorem of_sparing (sparing : ∀ exchange ∈ trace, exchange.request ≠ .refreshProducts) :
    Attempts settings trace [] := by
  induction trace with
  | nil => exact .nil
  | cons exchange later ih =>
      have ⟨here, rest⟩ := List.forall_mem_cons.mp sparing
      exact .other here (ih rest)

theorem unique (first : Attempts settings trace attempts) (also : Attempts settings trace more) :
    attempts = more := by
  induction first generalizing more with
  | nil =>
      cases also
      rfl
  | refresh made _ ih =>
      cases also with
      | refresh madeToo rest => rw [made.unique madeToo, ih rest]
      | other other rest => exact absurd rfl other
  | other other _ ih =>
      cases also with
      | refresh made rest => exact absurd rfl other
      | other _ rest => exact ih rest

end Attempts

/-- The outcome of the last of these attempts that did not fail. -/
def Recalls (attempts : List Attempt) (push : Push) : Prop :=
  ∃ earlier attempt failed, attempts = earlier ++ attempt :: failed ∧ attempt.outcome = .ok push ∧
    ∀ later ∈ failed, later.Fails

/-- What becomes of the outcome that is kept: it stays exactly if all these attempts fail. -/
def Replaces (before : Push) (attempts : List Attempt) (after : Push) : Prop :=
  Recalls attempts after ∨ (∀ attempt ∈ attempts, attempt.Fails) ∧ after = before

section

variable {before between after : Push} {attempts more : List Attempt}

theorem Replaces.nil (push : Push) : Replaces push [] push := .inr ⟨by simp, rfl⟩

theorem recalls_singleton {attempt : Attempt} (kept : attempt.outcome = .ok after) :
    Recalls [attempt] after :=
  ⟨[], attempt, [], rfl, kept, by simp⟩

theorem Recalls.replaced (recalls : Recalls attempts before) (replaces : Replaces before more after) :
    Recalls (attempts ++ more) after := by
  rcases replaces with ⟨earlier, attempt, failed, rfl, kept, fail⟩ | ⟨fail, rfl⟩
  · exact ⟨attempts ++ earlier, attempt, failed, (List.append_assoc _ _ _).symm, kept, fail⟩
  · obtain ⟨earlier, attempt, failed, rfl, kept, failToo⟩ := recalls
    refine ⟨earlier, attempt, failed ++ more, List.append_assoc _ _ _, kept, ?_⟩
    exact List.forall_mem_append.mpr ⟨failToo, fail⟩

theorem Replaces.append (first : Replaces before attempts between)
    (second : Replaces between more after) : Replaces before (attempts ++ more) after := by
  rcases first with recalls | ⟨fail, rfl⟩
  · exact .inl (recalls.replaced second)
  · rcases second with ⟨earlier, attempt, failed, rfl, kept, fails⟩ | ⟨failToo, rfl⟩
    · exact .inl ⟨attempts ++ earlier, attempt, failed, (List.append_assoc _ _ _).symm, kept, fails⟩
    · exact .inr ⟨List.forall_mem_append.mpr ⟨fail, failToo⟩, rfl⟩

end

theorem Request.OfLoad.ne_refresh {r : Request} (loading : r.OfLoad) : r ≠ .refreshProducts := by
  intro same
  rw [same] at loading
  exact loading

theorem Request.OfTelling.ne_refresh {r : Request} (telling : r.OfTelling) : r ≠ .refreshProducts := by
  intro same
  rw [same] at telling
  exact telling

namespace Keeper

variable {k k' : Keeper} {trace : Trace} {progress : Progress Keeper}

/-- The attempts in the work account for what it makes of the outcome that is kept. -/
def Tries (k : Keeper) (trace : Trace) (k' : Keeper) : Prop :=
  ∃ attempts, Attempts k.monitor.settings trace attempts ∧ Replaces k.lastPush attempts k'.lastPush

theorem tries_of_sparing (sparing : ∀ exchange ∈ trace, exchange.request ≠ .refreshProducts)
    (kept : k'.lastPush = k.lastPush) : k.Tries trace k' := by
  refine ⟨[], .of_sparing sparing, ?_⟩
  rw [kept]
  exact .nil _

theorem Tries.append {mid : Keeper} {later : Trace} (first : k.Tries trace mid)
    (second : mid.Tries later k') (same : mid.monitor.settings = k.monitor.settings) :
    k.Tries (trace ++ later) k' := by
  obtain ⟨attempts, made, replaces⟩ := first
  obtain ⟨more, madeToo, replacesToo⟩ := second
  rw [same] at madeToo
  exact ⟨attempts ++ more, made.append madeToo, replaces.append replacesToo⟩

theorem settings_of_fixed (fixed : k'.fixed = k.fixed) : k'.monitor.settings = k.monitor.settings :=
  congrArg (·.1.1) fixed

theorem PushesAgain.attempt {outcome : Except Failure Push} (pushes : k.PushesAgain trace k' outcome) :
    ∃ attempt : Attempt, attempt.Made k.monitor.settings trace ∧ attempt.outcome = outcome ∧
      Replaces k.lastPush [attempt] k'.lastPush := by
  cases pushes with
  | done pushes =>
      have settles := pushes.form.settles (List.prefix_refl trace)
      obtain ⟨attempt, made, kept⟩ := Attempt.exists_of_settles settles
      exact ⟨attempt, made, kept, .inl (recalls_singleton kept)⟩
  | failed pushes =>
      have settles := pushes.form.settles (List.prefix_refl trace)
      obtain ⟨attempt, made, failed⟩ := Attempt.exists_of_settles settles
      have fails : ∀ other ∈ [attempt], other.Fails := by
        simpa using Attempt.fails_of_outcome failed
      exact ⟨attempt, made, failed, .inr ⟨fails, rfl⟩⟩

theorem Refreshes.tries {source : Source} (refreshes : k.Refreshes source trace k') :
    k.Tries trace k' := by
  cases refreshes with
  | @products _ pushing outcome pushed =>
      obtain ⟨attempt, made, -, replaces⟩ := pushed.attempt
      have sparing : ∀ exchange ∈ pushing, exchange.request ≠ .refreshProducts :=
        fun exchange member => (pushed.asks exchange member).ne_refresh
      have quiet : ∀ exchange ∈ pushing ++ noted (complaints outcome),
          exchange.request ≠ .refreshProducts :=
        List.forall_mem_append.mpr ⟨sparing, by simp [noted]⟩
      exact ⟨[attempt], .refresh (made.append _) (.of_sparing quiet), replaces⟩
  | entitlements => exact tries_of_sparing (by simp) rfl
  | consumer => exact tries_of_sparing (by simp) rfl

theorem Loads.tries (loads : k.Loads trace progress) : k.Tries trace progress.state := by
  have sparing := fun exchange member => (loads.asks exchange member).ne_refresh
  cases loads with
  | within loads => exact tries_of_sparing sparing (by rw [Progress.state_map])

theorem Handles.tries {source : Source} (handles : k.Handles source trace progress) :
    k.Tries trace progress.state := by
  cases handles with
  | @loaded k' refreshing loading _ refreshed loaded =>
      have note : k.Tries [⟨.note (.sourceChanged source), ()⟩] k := tries_of_sparing (by simp) rfl
      have refreshes := note.append refreshed.tries rfl
      exact refreshes.append loaded.tries (settings_of_fixed refreshed.fixed)

theorem HandlesAll.tries {sources : List Source} (handles : k.HandlesAll sources trace progress) :
    k.Tries trace progress.state := by
  induction handles with
  | nil k => exact tries_of_sparing (by simp) rfl
  | stopped handled => exact handled.tries
  | cons handled _ ih => exact handled.tries.append ih (settings_of_fixed handled.fixed)

theorem Notifies.tries (notifies : k.Notifies trace k') : k.Tries trace k' := by
  have sparing := fun exchange member => (notifies.telling exchange member).ne_refresh
  cases notifies with
  | told registered lawful called => exact tries_of_sparing sparing rfl

theorem Tells.tries {before : Progress Keeper} (tells : Tells before trace progress) :
    before.state.Tries trace progress.state := by
  cases tells with
  | stopped k => exact tries_of_sparing (by simp) rfl
  | told _ notifies => exact notifies.tries

theorem Checks.tries (checks : k.Checks trace progress) : k.Tries trace progress.state := by
  have polling (answers : Source → Bool) : k.Tries (polls k.watchers answers Source.all) k := by
    refine tries_of_sparing (fun exchange member => ?_) rfl
    obtain ⟨watcher, polled⟩ := polls_only Source.all exchange member
    simp [polled]
  cases checks with
  | @unchanged answers none => exact polling answers
  | @changed answers handling telling before after some handled told =>
      have works := (polling answers).append handled.tries rfl
      exact works.append told.tries (settings_of_fixed handled.fixed)

theorem tries_onChange (changed : k.onChange.Yields trace progress) : k.Tries trace progress.state := by
  obtain ⟨loading, before, telling, same, loaded, tells⟩ := yields_onChange.mp changed
  rw [same]
  exact loaded.tries.append tells.tries (settings_of_fixed loaded.fixed)

inductive Chore (k : Keeper) : Trace → Progress Keeper → Prop where
  | load {trace : Trace} {progress : Progress Keeper} (loaded : k.load.Yields trace progress) :
      Chore k trace progress
  | onChange {trace : Trace} {progress : Progress Keeper} (changed : k.onChange.Yields trace progress) :
      Chore k trace progress
  | handleChange {source : Source} {trace : Trace} {progress : Progress Keeper}
      (handled : (k.handleChange source).Yields trace progress) : Chore k trace progress
  | forceCheck {trace : Trace} {progress : Progress Keeper} (checked : k.forceCheck.Yields trace progress) :
      Chore k trace progress
  | notify {trace : Trace} {k' : Keeper} (told : k.notify.Yields trace k') : Chore k trace (.finished k')
  | query {query : Query} {trace : Trace} {answer : query.Answer}
      (asked : (query.ask k.monitor).Yields trace answer) : Chore k trace (.finished k)
  | hasEntitlements {trace : Trace} {present : Bool}
      (asked : hasEntitlements.Yields trace present) : Chore k trace (.finished k)
  | addCallback (cb : CallbackId) : Chore k [] (.finished (k.addCallback cb).1)
  | removeCallback (cb : CallbackId) : Chore k [] (.finished (k.removeCallback cb).1)

theorem Chore.fixed (chore : k.Chore trace progress) : progress.state.fixed = k.fixed := by
  cases chore with
  | load loaded => exact (yields_load.mp loaded).fixed
  | onChange changed => exact fixed_onChange changed
  | handleChange handled => exact (yields_handleChange.mp handled).fixed
  | forceCheck checked => exact (yields_forceCheck.mp checked).fixed
  | notify told => exact (notifies_of_yields told).fixed
  | query | hasEntitlements | addCallback | removeCallback => rfl

theorem Chore.tries (chore : k.Chore trace progress) : k.Tries trace progress.state := by
  cases chore with
  | load loaded => exact (yields_load.mp loaded).tries
  | onChange changed => exact tries_onChange changed
  | handleChange handled => exact (yields_handleChange.mp handled).tries
  | forceCheck checked => exact (yields_forceCheck.mp checked).tries
  | notify told => exact (notifies_of_yields told).tries
  | @query query _ _ asked =>
      have keeps : (query.ask k.monitor).Keeps (· ≠ .refreshProducts) :=
        query.keeps_ask (by simp) (by simp) k.monitor
      exact tries_of_sparing (keeps.exchanges asked) rfl
  | hasEntitlements asked =>
      have keeps : Keeper.hasEntitlements.Keeps (· ≠ .refreshProducts) := .ask (by simp) fun _ => .done _
      exact tries_of_sparing (keeps.exchanges asked) rfl
  | addCallback cb => exact tries_of_sparing (by simp) rfl
  | removeCallback cb => exact tries_of_sparing (by simp) rfl

end Keeper

theorem Progress.map_injective {σ τ : Type} {f : σ → τ} (injective : Function.Injective f) :
    Function.Injective (Progress.map f) := by
  intro first second same
  cases first with
  | finished =>
      cases second with
      | finished => rw [injective (Progress.finished.inj same)]
      | stopped => cases same
  | stopped =>
      cases second with
      | finished => cases same
      | stopped => rw [injective (Progress.stopped.inj same)]

theorem Step.of_monitor {m : Monitor} {trace : Trace} {next : Progress Subject}
    (step : Step (.monitor m) trace next) : ∃ progress : Progress Monitor, next = progress.map .monitor := by
  cases step with
  | quiet quiet =>
      cases quiet with
      | query asked => exact ⟨.finished m, rfl⟩
  | loadMonitor loaded => exact ⟨_, rfl⟩

theorem Step.of_keeper {k : Keeper} {trace : Trace} {next : Progress Subject}
    (step : Step (.keeper k) trace next) :
    (∃ k' outcome, k.push.Yields trace (k', outcome) ∧ next = .finished (.keeper k')) ∨
      ∃ progress, k.Chore trace progress ∧ next = progress.map .keeper := by
  cases step with
  | quiet quiet =>
      cases quiet with
      | query asked => exact .inr ⟨_, .query asked, rfl⟩
      | hasEntitlements asked => exact .inr ⟨_, .hasEntitlements asked, rfl⟩
      | push pushed => exact .inl ⟨_, _, pushed, rfl⟩
      | notify told => exact .inr ⟨_, .notify told, rfl⟩
      | addCallback cb => exact .inr ⟨_, .addCallback cb, rfl⟩
      | removeCallback cb => exact .inr ⟨_, .removeCallback cb, rfl⟩
  | load loaded => exact .inr ⟨_, .load loaded, rfl⟩
  | onChange changed => exact .inr ⟨_, .onChange changed, rfl⟩
  | handleChange handled => exact .inr ⟨_, .handleChange handled, rfl⟩
  | forceCheck checked => exact .inr ⟨_, .forceCheck checked, rfl⟩

/-- A run of a keeper from its start, with all the attempts to push in it, in their order. -/
inductive History (settings : Settings) : Trace → List Attempt → Progress Keeper → Prop where
  | start {source : VerdictSource} {watchers : Watchers} {nesting : Nat} {trace : Trace}
      {progress : Progress Keeper} {attempt : Attempt}
      (started : (Keeper.start settings source watchers nesting).Yields trace (.ok progress))
      (made : attempt.Made settings trace) : History settings trace [attempt] progress
  | push {trace later : Trace} {attempts : List Attempt} {k k' : Keeper} {attempt : Attempt}
      {outcome : Except Failure Push} (before : History settings trace attempts (.finished k))
      (pushed : k.push.Yields later (k', outcome)) (made : attempt.Made settings later) :
      History settings (trace ++ later) (attempts ++ [attempt]) (.finished k')
  | chore {trace later : Trace} {attempts more : List Attempt} {k : Keeper} {progress : Progress Keeper}
      (before : History settings trace attempts (.finished k)) (chore : k.Chore later progress)
      (made : Attempts settings later more) :
      History settings (trace ++ later) (attempts ++ more) progress

variable {settings : Settings} {trace : Trace} {attempts : List Attempt} {progress : Progress Keeper}

theorem Keeper.attempt_of_start {source : VerdictSource} {watchers : Watchers} {nesting : Nat}
    (started : (Keeper.start settings source watchers nesting).Yields trace (.ok progress)) :
    ∃ attempt : Attempt, attempt.Made settings trace ∧ attempt.outcome = .ok progress.state.lastPush := by
  generalize answer : Except.ok progress = outcome at started
  cases Keeper.starts_of_yields started with
  | failed pushes => cases answer
  | @loaded pushing loading lastPush inner pushes loaded =>
      cases answer
      have settles := pushes.form.settles (List.prefix_append pushing loading)
      obtain ⟨attempt, made, outcome⟩ := Attempt.exists_of_settles settles
      refine ⟨attempt, made, ?_⟩
      rw [outcome, Progress.state_map]

theorem History.settings_eq (history : History settings trace attempts progress) :
    progress.state.monitor.settings = settings := by
  induction history with
  | start started made => exact congrArg (·.1.1) (Keeper.fixed_start started)
  | push before pushed made ih =>
      exact (Keeper.settings_of_fixed (Keeper.yields_push.mp pushed).fixed).trans ih
  | chore before chore made ih => exact (Keeper.settings_of_fixed chore.fixed).trans ih

/-- What is kept of the pushes in a run is the outcome of the last attempt that did not fail. -/
theorem History.recalls (history : History settings trace attempts progress) :
    Recalls attempts progress.state.lastPush := by
  induction history with
  | start started made =>
      obtain ⟨attempt, madeToo, kept⟩ := Keeper.attempt_of_start started
      rw [made.unique madeToo]
      exact recalls_singleton kept
  | @push trace later attempts k k' attempt outcome before pushed made ih =>
      obtain ⟨other, madeToo, -, replaces⟩ := (Keeper.yields_push.mp pushed).attempt
      have same : k.monitor.settings = settings := before.settings_eq
      rw [same] at madeToo
      rw [made.unique madeToo]
      exact ih.replaced replaces
  | @chore trace later attempts more k progress before chore made ih =>
      obtain ⟨others, madeToo, replaces⟩ := chore.tries
      have same : k.monitor.settings = settings := before.settings_eq
      rw [same] at madeToo
      rw [made.unique madeToo]
      exact ih.replaced replaces

theorem Run.exists_history {next : Progress Subject} (run : Run trace next) :
    (∃ progress : Progress Monitor, next = progress.map .monitor) ∨
      ∃ settings attempts progress, History settings trace attempts progress ∧
        next = progress.map .keeper := by
  induction run with
  | monitor started => exact .inl ⟨_, rfl⟩
  | keeper started =>
      obtain ⟨attempt, made, -⟩ := Keeper.attempt_of_start started
      exact .inr ⟨_, [attempt], _, .start started made, rfl⟩
  | @step s trace later next run step ih =>
      rcases ih with ⟨progress, same⟩ | ⟨settings, attempts, progress, history, same⟩
      · left
        cases progress with
        | stopped m => cases same
        | finished m =>
            cases same
            exact step.of_monitor
      · right
        cases progress with
        | stopped k => cases same
        | finished k =>
            cases same
            have fixed : k.monitor.settings = settings := history.settings_eq
            rcases step.of_keeper with ⟨k', outcome, pushed, rfl⟩ | ⟨progress, chore, rfl⟩
            · obtain ⟨attempt, made, -⟩ := (Keeper.yields_push.mp pushed).attempt
              rw [fixed] at made
              exact ⟨settings, _, _, history.push pushed made, rfl⟩
            · obtain ⟨more, made, -⟩ := chore.tries
              rw [fixed] at made
              exact ⟨settings, _, _, history.chore chore made, rfl⟩

theorem Run.exists_attempts (run : Run trace (progress.map .keeper)) :
    ∃ settings attempts, History settings trace attempts progress := by
  rcases run.exists_history with ⟨other, same⟩ | ⟨settings, attempts, other, history, same⟩
  · cases progress <;> cases other <;> cases same
  · have injective : Function.Injective Subject.keeper := fun _ _ => Subject.keeper.inj
    rw [Progress.map_injective injective same]
    exact ⟨settings, attempts, history⟩

/-- After any run of a keeper, also one that stopped short, the outcome that is kept is that of the last
attempt that did not fail; it is the outcome of the latest attempt exactly if that one did not fail. The
products are said to be updated exactly if the authority took them in that last attempt, whatever has
failed since. -/
theorem lastPush_exact (run : Run trace (progress.map .keeper)) :
    (∃ settings attempts, History settings trace attempts progress) ∧
      ∀ settings attempts, History settings trace attempts progress →
        ∃ earlier attempt failed, attempts = earlier ++ attempt :: failed ∧
          attempt.outcome = .ok progress.state.lastPush ∧ (∀ later ∈ failed, later.Fails) ∧
          (progress.state.lastPush.isUpdated = true ↔ attempt = .sent (.ok ())) ∧
          ((∃ latest, attempts.getLast? = some latest ∧
              latest.outcome = .ok progress.state.lastPush) ↔ failed = []) := by
  refine ⟨run.exists_attempts, ?_⟩
  intro settings attempts history
  obtain ⟨earlier, attempt, failed, same, kept, fails⟩ := history.recalls
  refine ⟨earlier, attempt, failed, same, kept, fails, ?_, ?_⟩
  · rw [← Attempt.outcome_eq_updated, kept, Push.isUpdated, decide_eq_true_iff, Except.ok.injEq]
  · rw [same, List.getLast?_append_of_ne_nil earlier (List.cons_ne_nil attempt failed)]
    constructor
    · rintro ⟨latest, last, keptLast⟩
      by_contra some
      rw [List.getLast?_cons_of_ne_nil some] at last
      have failsLast := fails latest (List.mem_of_getLast? last)
      exact Attempt.not_fails_of_outcome keptLast failsLast
    · rintro rfl
      exact ⟨attempt, rfl, kept⟩

def unreachable : Failure := .network "unreachable"

def unreachableWorld : Scenario.World := { coveredWorld with pushError := some unreachable }

def startedKeeper : Keeper := { watchedKeeper with observers := {} }

def takenTrace : Trace :=
  (Keeper.start {} .authority (.ofList watched) 1).record Scenario.World.answer coveredWorld

def lostTrace : Trace := startedKeeper.push.record Scenario.World.answer unreachableWorld

theorem takenTrace_yields : (Keeper.start {} .authority (.ofList watched) 1).Yields takenTrace
    (.ok (.finished startedKeeper)) := by
  have started : ((Keeper.start {} .authority (.ofList watched) 1).run Scenario.World.answer
      coveredWorld).1 = .ok (.finished startedKeeper) := rfl
  rw [← started]
  exact Program.yields_record Scenario.World.answer _ coveredWorld

theorem lostTrace_yields : startedKeeper.push.Yields lostTrace (startedKeeper, .error unreachable) := by
  have pushed : (startedKeeper.push.run Scenario.World.answer unreachableWorld).1 =
      (startedKeeper, .error unreachable) := rfl
  rw [← pushed]
  exact Program.yields_record Scenario.World.answer _ unreachableWorld

def lostAttempts : List Attempt := [.sent (.ok ()), .sent (.error unreachable)]

theorem history_lost : History {} (takenTrace ++ lostTrace) lostAttempts (.finished startedKeeper) := by
  have taken : (Attempt.sent (.ok ())).Made {} takenTrace :=
    ⟨rfl, ⟨1⟩, coveredWorld.installed, _, .answered _, _, rfl⟩
  have lost : (Attempt.sent (.error unreachable)).Made {} lostTrace :=
    ⟨rfl, ⟨1⟩, coveredWorld.installed, _, .answered _, [], rfl⟩
  have history := (History.start takenTrace_yields taken).push lostTrace_yields lost
  exact history

theorem run_lost : Run (takenTrace ++ lostTrace) (.finished (.keeper startedKeeper)) :=
  .step (.keeper takenTrace_yields) (.quiet (.push lostTrace_yields))

theorem lastPush_exact_lost :
    Run (takenTrace ++ lostTrace) (.finished (.keeper startedKeeper)) ∧
      History {} (takenTrace ++ lostTrace) lostAttempts (.finished startedKeeper) ∧
      ∃ earlier attempt failed, lostAttempts = earlier ++ attempt :: failed ∧
        attempt = .sent (.ok ()) ∧ failed ≠ [] := by
  have run : Run (takenTrace ++ lostTrace) ((Progress.finished startedKeeper).map .keeper) := run_lost
  obtain ⟨-, remembers⟩ := lastPush_exact run
  obtain ⟨earlier, attempt, failed, same, -, -, updated, latest⟩ := remembers _ _ history_lost
  refine ⟨run_lost, history_lost, earlier, attempt, failed, same, updated.mp rfl, ?_⟩
  intro none
  obtain ⟨attempt, last, kept⟩ := latest.mpr none
  cases last
  cases kept

/-- The authority took the products, a later attempt failed, and they are still said to be updated. -/
theorem updated_after_failure :
    Run (takenTrace ++ lostTrace) (.finished (.keeper startedKeeper)) ∧
      History {} (takenTrace ++ lostTrace) lostAttempts (.finished startedKeeper) ∧
      startedKeeper.lastPush.isUpdated = true ∧
      ∀ latest, lostAttempts.getLast? = some latest →
        latest.Fails ∧ latest.outcome ≠ .ok startedKeeper.lastPush := by
  refine ⟨run_lost, history_lost, rfl, ?_⟩
  rintro latest last
  cases last
  have fails : (Attempt.sent (.error unreachable)).Fails := ⟨unreachable, rfl, rfl⟩
  exact ⟨fails, fun kept => Attempt.not_fails_of_outcome kept fails⟩

end Coverage
