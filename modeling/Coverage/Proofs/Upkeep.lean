import Coverage.Proofs.Provenance
/-!
What every operation of a keeper does, whatever its surroundings answer. Polls come first and calls of
observers last; in between, each change is handled by one refresh and one load. Loads, pushes and
handlings of changes call nobody.
-/

namespace Coverage

open Scenario (Subject)

/-- What loads, pushes and refreshes may ask: neither polls nor what a pass asks. -/
def Request.OfWork : Request → Prop
  | .poll _ | .call _ | .acted _ _ _ => False
  | _ => True

/-- What loads and pushes may ask, by which nothing local is read anew. -/
def Request.OfLoad : Request → Prop
  | .poll _ | .call _ | .acted _ _ _ | .refreshProducts | .refreshCertificates | .reloadIdentity
  | .resetConnection => False
  | _ => True

def Request.OfTelling : Request → Prop
  | .registered | .note _ | .call _ | .acted _ _ _ => True
  | _ => False

theorem Request.OfWork.ne_poll {r : Request} (work : r.OfWork) (watcher : String) : r ≠ .poll watcher := by
  intro same
  rw [same] at work
  exact work

theorem Request.OfWork.ne_call {r : Request} (work : r.OfWork) (cb : CallbackId) : r ≠ .call cb := by
  intro same
  rw [same] at work
  exact work

theorem Request.OfTelling.ne_poll {r : Request} (telling : r.OfTelling) (watcher : String) :
    r ≠ .poll watcher := by
  intro same
  rw [same] at telling
  exact telling

theorem Request.OfPass.telling {r : Request} (passing : r.OfPass) : r.OfTelling := by
  cases r <;> trivial

theorem Request.OfLoad.work {r : Request} (loading : r.OfLoad) : r.OfWork := by
  cases r <;> trivial

theorem Request.IsFor.ofLoad {r : Request} {consumer : ConsumerId} (asked : r.IsFor consumer) :
    r.OfLoad := by
  cases r <;> trivial

theorem noted_work (notices : List Notice) : ∀ exchange ∈ noted notices, exchange.request.OfWork := by
  simp [noted, Request.OfWork]

namespace Monitor

variable {m : Monitor} {trace : Trace} {progress : Progress Monitor}

theorem Loads.asks (loads : m.Loads trace progress) :
    ∀ exchange ∈ trace, exchange.request.OfLoad := by
  cases loads with
  | unregistered installed => simp [noted, Request.OfLoad]
  | noConsumer installed => simp [noted, Request.OfLoad]
  | identified loads =>
      simp only [List.forall_mem_cons]
      exact ⟨trivial, trivial, trivial, fun exchange member => (loads.isFor exchange member).ofLoad⟩

end Monitor

theorem Pushes.asks {trace : Trace} {outcome : Except Failure Push} (pushes : Pushes trace outcome) :
    ∀ exchange ∈ trace, exchange.request.OfLoad := by
  cases pushes with
  | unregistered => simp [Request.OfLoad]
  | noConsumer => simp [Request.OfLoad]
  | identified pushes =>
      simp only [List.forall_mem_cons]
      exact ⟨trivial, trivial, fun exchange member => (pushes.isFor exchange member).ofLoad⟩

theorem mem_of_split {α : Type} {front back before after : List α} {a : α} (apart : a ∉ front)
    (split : front ++ back = before ++ a :: after) : ∀ b ∈ after, b ∈ back := by
  intro b member
  rcases List.append_eq_append_iff.mp split with ⟨between, _, within⟩ | ⟨between, same, rest⟩
  · rw [within]
    exact List.mem_append_right between (List.mem_cons_of_mem _ member)
  · cases between with
    | nil =>
        rw [List.nil_append] at rest
        rw [← rest]
        exact List.mem_cons_of_mem _ member
    | cons first others =>
        -- the element would be in front
        have head : a = first := (List.cons.inj rest).1
        have inside : a ∈ front := by
          rw [same, head]
          exact List.mem_append_right before List.mem_cons_self
        exact absurd inside apart

theorem telling_of_call {work telling before after : Trace} {cb : CallbackId} {behaviour : Behaviour}
    (uncalled : ∀ exchange ∈ work, exchange.request ≠ .call cb)
    (tells : ∀ exchange ∈ telling, exchange.request.OfTelling)
    (split : work ++ telling = before ++ ⟨.call cb, behaviour⟩ :: after) :
    ∀ exchange ∈ after, exchange.request.OfTelling := by
  have apart : ⟨.call cb, behaviour⟩ ∉ work := fun called => uncalled _ called rfl
  intro exchange member
  exact tells exchange (mem_of_split apart split exchange member)

theorem polled_of_changesIn {w : Watchers} {answers : Source → Bool} {sources : List Source}
    (changed : changesIn w answers sources ≠ []) :
    ∃ watcher, ⟨.poll watcher, true⟩ ∈ polls w answers sources := by
  obtain ⟨source, found⟩ := List.exists_mem_of_ne_nil _ changed
  obtain ⟨member, reports⟩ := List.mem_filter.mp found
  obtain ⟨kept, answer⟩ := Bool.and_eq_true_iff.mp reports
  obtain ⟨watcher, same⟩ := Option.isSome_iff_exists.mp kept
  refine ⟨watcher, List.mem_filterMap.mpr ⟨source, member, ?_⟩⟩
  rw [same, answer]
  rfl

namespace Keeper

variable {k k' : Keeper} {trace : Trace} {progress : Progress Keeper}

theorem PushesIf.asks {settings : Settings} {outcome : Except Failure Push}
    (pushes : PushesIf settings trace outcome) : ∀ exchange ∈ trace, exchange.request.OfLoad := by
  cases pushes with
  | off setting => simp
  | on setting pushes => exact pushes.asks

theorem PushesAgain.asks {outcome : Except Failure Push} (pushes : k.PushesAgain trace k' outcome) :
    ∀ exchange ∈ trace, exchange.request.OfLoad := by
  cases pushes with
  | done pushes => exact pushes.asks
  | failed pushes => exact pushes.asks

theorem Refreshes.work {source : Source} (refreshes : k.Refreshes source trace k') :
    ∀ exchange ∈ trace, exchange.request.OfWork := by
  cases refreshes with
  | products pushed =>
      simp only [List.cons_append, List.forall_mem_cons, List.forall_mem_append]
      exact ⟨trivial, fun exchange member => (pushed.asks exchange member).work, noted_work _⟩
  | entitlements => simp [Request.OfWork]
  | consumer => simp [Request.OfWork]

theorem Loads.asks (loads : k.Loads trace progress) :
    ∀ exchange ∈ trace, exchange.request.OfLoad := by
  cases loads with
  | within loads => exact loads.asks

theorem Loads.work (loads : k.Loads trace progress) :
    ∀ exchange ∈ trace, exchange.request.OfWork :=
  fun exchange member => (loads.asks exchange member).work

theorem Handles.work {source : Source} (handles : k.Handles source trace progress) :
    ∀ exchange ∈ trace, exchange.request.OfWork := by
  cases handles with
  | loaded refreshed loaded =>
      simp only [List.cons_append, List.forall_mem_cons, List.forall_mem_append]
      exact ⟨trivial, refreshed.work, loaded.work⟩

theorem HandlesAll.work {sources : List Source} (handles : k.HandlesAll sources trace progress) :
    ∀ exchange ∈ trace, exchange.request.OfWork := by
  induction handles with
  | nil k => simp
  | stopped handled => exact handled.work
  | cons handled others ih => exact List.forall_mem_append.mpr ⟨handled.work, ih⟩

theorem Notifies.telling (notifies : k.Notifies trace k') :
    ∀ exchange ∈ trace, exchange.request.OfTelling := by
  cases notifies with
  | @told registered pass lawful called =>
      simp only [noted, List.map_cons, List.map_nil, List.cons_append, List.nil_append,
        List.forall_mem_cons]
      exact ⟨trivial, trivial, fun exchange member => (pass.asks exchange member).telling⟩

theorem Tells.telling {before : Progress Keeper} (tells : Tells before trace progress) :
    ∀ exchange ∈ trace, exchange.request.OfTelling := by
  cases tells with
  | stopped k => simp
  | told _ notifies => exact notifies.telling

/-- A check falls into polls, work and what is said to the observers. -/
theorem Checks.shape (checks : k.Checks trace progress) :
    ∃ answers work telling, trace = polls k.watchers answers Source.all ++ (work ++ telling) ∧
      (∀ exchange ∈ work, exchange.request.OfWork) ∧
      ∀ exchange ∈ telling, exchange.request.OfTelling := by
  cases checks with
  | @unchanged answers none => exact ⟨answers, [], [], by simp, by simp, by simp⟩
  | @changed answers handling telling _ _ some handled told =>
      exact ⟨answers, handling, telling, List.append_assoc _ _ _, handled.work, told.telling⟩

theorem Checks.unpolled (checks : k.Checks trace progress) :
    ∃ answers later, trace = polls k.watchers answers Source.all ++ later ∧
      ∀ exchange ∈ later, ∀ watcher, exchange.request ≠ .poll watcher := by
  have ⟨answers, work, telling, same, works, tells⟩ := checks.shape
  refine ⟨answers, work ++ telling, same, List.forall_mem_append.mpr ⟨?_, ?_⟩⟩
  · intro exchange member
    exact (works exchange member).ne_poll
  · intro exchange member
    exact (tells exchange member).ne_poll

theorem Checks.telling_of_call (checks : k.Checks trace progress) {before after : Trace}
    {cb : CallbackId} {behaviour : Behaviour} (split : trace = before ++ ⟨.call cb, behaviour⟩ :: after) :
    ∀ exchange ∈ after, exchange.request.OfTelling := by
  have ⟨answers, work, telling, same, works, tells⟩ := checks.shape
  rw [same, ← List.append_assoc] at split
  apply Coverage.telling_of_call _ tells split
  intro exchange member
  rcases List.mem_append.mp member with member | member
  · have ⟨watcher, polled⟩ := polls_only Source.all exchange member
    simp [polled]
  · exact (works exchange member).ne_call cb

theorem Checks.idle (checks : k.Checks trace progress)
    (none : ∀ exchange ∈ trace, ∀ watcher, exchange ≠ ⟨.poll watcher, true⟩) :
    progress = .finished k ∧ ∃ answers, trace = polls k.watchers answers Source.all := by
  cases checks with
  | @unchanged answers _ => exact ⟨rfl, answers, rfl⟩
  | @changed answers handling telling before after some handled told =>
      have ⟨watcher, polled⟩ := polled_of_changesIn some
      have member := List.mem_append_left telling (List.mem_append_left handling polled)
      exact absurd rfl (none _ member watcher)

theorem telling_of_onChange (changed : k.onChange.Yields trace progress) {before after : Trace}
    {cb : CallbackId} {behaviour : Behaviour} (split : trace = before ++ ⟨.call cb, behaviour⟩ :: after) :
    ∀ exchange ∈ after, exchange.request.OfTelling := by
  have ⟨loading, _, telling, same, loaded, tells⟩ := yields_onChange.mp changed
  rw [same] at split
  apply Coverage.telling_of_call _ tells.telling split
  intro exchange member
  exact (loaded.work exchange member).ne_call cb

end Keeper

/-- The watcher that counts for a source: of those given for it, the last. -/
def lastGiven (given : List (Source × String)) (source : Source) : Option String :=
  given.reverse.lookup source

namespace Watchers

theorem get_set (w : Watchers) (source other : Source) (watcher : String) :
    (w.set source watcher).get other = if other = source then some watcher else w.get other := by
  cases source <;> cases other <;> rfl

theorem get_ofList (given : List (Source × String)) (source : Source) :
    (ofList given).get source = lastGiven given source := by
  suffices folded : ∀ w : Watchers, (given.foldl (fun w entry => w.set entry.1 entry.2) w).get source =
      (given.reverse.lookup source).or (w.get source) by
    have empty : ({} : Watchers).get source = none := by cases source <;> rfl
    rw [ofList, folded, empty, Option.or_none, lastGiven]
  induction given with
  | nil => exact fun w => rfl
  | cons entry rest ih =>
      intro w
      rw [List.foldl_cons, ih, List.reverse_cons, List.lookup_append, get_set, Option.or_assoc]
      apply congrArg
      by_cases same : source = entry.1
      · rw [if_pos same, List.lookup_cons, beq_iff_eq.mpr same]
        rfl
      · rw [if_neg same, List.lookup_cons, beq_eq_false_iff_ne.mpr same]
        rfl

end Watchers

/-- A keeper that was started with these watchers and has taken any steps since. -/
inductive Built (given : List (Source × String)) : Keeper → Prop where
  | start {settings : Settings} {source : VerdictSource} {nesting : Nat} {trace : Trace} {k : Keeper}
      (started : (Keeper.start settings source (.ofList given) nesting).Yields trace
        (.ok (.finished k))) : Built given k
  | step {k k' : Keeper} {trace : Trace} (built : Built given k)
      (next : Step (.keeper k) trace (.finished (.keeper k'))) : Built given k'

theorem Built.watchers {given : List (Source × String)} {k : Keeper} (built : Built given k) :
    k.watchers = .ofList given := by
  induction built with
  | start started => exact congrArg (·.2.1) (Keeper.fixed_start started)
  | step built next ih =>
      have fixed := Sum.inr.inj next.fixed
      exact (congrArg (·.2.1) fixed).trans ih

/-- How a keeper works that was built from these watchers. -/
structure Upkeep (given : List (Source × String)) (k : Keeper) : Prop where
  kept : ∀ source, k.watchers.get source = lastGiven given source
  /-- A check is the polls, then the handlings of what changed, then one telling of the observers. -/
  checks : ∀ trace progress, k.forceCheck.Yields trace progress ↔ k.Checks trace progress
  /-- A handling is the refresh of the source and then a load, whatever comes of the refresh. -/
  handles : ∀ source trace progress,
    (k.handleChange source).Yields trace progress ↔ k.Handles source trace progress
  changes : ∀ trace progress, k.onChange.Yields trace progress ↔
    ∃ loading before telling, trace = loading ++ telling ∧ k.Loads loading before ∧
      Keeper.Tells before telling progress
  loads : ∀ trace progress, k.load.Yields trace progress ↔ k.Loads trace progress
  /-- If the settings have it, a push sends the list of what is installed for the registered consumer. -/
  pushes : ∀ trace k' outcome,
    k.push.Yields trace (k', outcome) ↔ k.PushesAgain trace k' outcome
  /-- The observers are told in one pass over those registered. -/
  notifies : ∀ trace k', k.notify.Yields trace k' → k.Notifies trace k'
  /-- Nothing is polled again after the first polls. -/
  polls_once : ∀ trace progress, k.forceCheck.Yields trace progress →
    ∃ answers later, trace = polls k.watchers answers Source.all ++ later ∧
      ∀ exchange ∈ later, ∀ watcher, exchange.request ≠ .poll watcher
  /-- If no watcher reports a change, nothing but the polls is done. -/
  idle : ∀ trace progress, k.forceCheck.Yields trace progress →
    (∀ exchange ∈ trace, ∀ watcher, exchange ≠ ⟨.poll watcher, true⟩) →
    progress = .finished k ∧ ∃ answers, trace = polls k.watchers answers Source.all
  /-- No reload follows a call of an observer. -/
  calls_last : ∀ trace progress, k.forceCheck.Yields trace progress ∨ k.onChange.Yields trace progress →
    ∀ before cb behaviour after, trace = before ++ ⟨.call cb, behaviour⟩ :: after →
      ∀ exchange ∈ after, exchange.request.OfTelling
  one_load : ∀ trace progress, ((∃ source, (k.handleChange source).Yields trace progress) ∨
    k.load.Yields trace progress ∨ k.onChange.Yields trace progress) → (findings trace).length = 1
  /-- Loads, pushes and handlings call nobody. -/
  silent : ∀ trace, ((∃ progress, k.load.Yields trace progress) ∨
    (∃ source progress, (k.handleChange source).Yields trace progress) ∨
    ∃ k' outcome, k.push.Yields trace (k', outcome)) → ∀ exchange ∈ trace, exchange.request.OfWork

/-- Whatever watchers were given and whatever steps were taken since, a keeper works like this. -/
theorem Built.upkeep {given : List (Source × String)} {k : Keeper} (built : Built given k) :
    Upkeep given k where
  kept source := by
    rw [built.watchers]
    exact Watchers.get_ofList given source
  checks trace progress := Keeper.yields_forceCheck
  handles source trace progress := Keeper.yields_handleChange
  changes trace progress := Keeper.yields_onChange
  loads trace progress := Keeper.yields_load
  pushes trace k' outcome := Keeper.yields_push
  notifies trace k' := Keeper.notifies_of_yields
  polls_once trace progress checked := (Keeper.yields_forceCheck.mp checked).unpolled
  idle trace progress checked := (Keeper.yields_forceCheck.mp checked).idle
  calls_last trace progress operated before cb behaviour after split := by
    rcases operated with checked | changed
    · exact (Keeper.yields_forceCheck.mp checked).telling_of_call split
    · exact Keeper.telling_of_onChange changed split
  one_load trace progress operated := by
    apply Finds.findings_length
    rcases operated with ⟨source, handled⟩ | loaded | changed
    · exact (Keeper.yields_handleChange.mp handled).finds
    · exact (Keeper.yields_load.mp loaded).finds
    · exact Keeper.finds_onChange changed
  silent trace operated := by
    rcases operated with ⟨progress, loaded⟩ | ⟨source, progress, handled⟩ | ⟨k', outcome, pushed⟩
    · exact (Keeper.yields_load.mp loaded).work
    · exact (Keeper.yields_handleChange.mp handled).work
    · exact fun exchange member => ((Keeper.yields_push.mp pushed).asks exchange member).work

def watched : List (Source × String) := [(.products, "first"), (.consumer, "identity"), (.products, "last")]

def watchedWorld : Scenario.World := { coveredWorld with tripped := ["first", "last", "identity"] }

def watchedKeeper : Keeper where
  monitor := coveredMonitor
  watchers := .ofList watched
  observers := ⟨["observer"]⟩
  nesting := 1
  lastPush := .updated

theorem upkeep_watched :
    Built watched watchedKeeper ∧ watchedKeeper.watchers.get .products = some "last" ∧
      watchedKeeper.Checks (watchedKeeper.forceCheck.record Scenario.World.answer watchedWorld)
        (watchedKeeper.forceCheck.run Scenario.World.answer watchedWorld).1 ∧
      (findings (watchedKeeper.forceCheck.record Scenario.World.answer watchedWorld)).length = 2 ∧
      (watchedKeeper.forceCheck.record Scenario.World.answer watchedWorld)[8]? =
        some ⟨.push ⟨1⟩ watchedWorld.installed.values, .ok ()⟩ := by
  have started : ((Keeper.start {} .authority (.ofList watched) 1).run Scenario.World.answer
      coveredWorld).1 = .ok (.finished { watchedKeeper with observers := {} }) := rfl
  have yields := Program.yields_record Scenario.World.answer
    (Keeper.start {} .authority (.ofList watched) 1) coveredWorld
  rw [started] at yields
  have built : Built watched watchedKeeper := .step (.start yields) (.quiet (.addCallback "observer"))
  have upkeep := built.upkeep
  refine ⟨built, upkeep.kept .products, ?_, rfl, rfl⟩
  exact (upkeep.checks _ _).mp (Program.yields_record Scenario.World.answer _ watchedWorld)

end Coverage
