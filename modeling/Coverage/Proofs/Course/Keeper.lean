import Coverage.Proofs.Course.Monitor
import Coverage.Proofs.Passes
import Mathlib.Data.List.Basic
import Mathlib.Logic.Function.Basic
/-!
The courses that the work of a keeper can take. A check polls the watchers first; then it is one handling
after the other, one for each change, and one pass over the observers in the end. A handling is the
refresh of its source and one load.
-/

namespace Coverage

inductive Sends (consumer : ConsumerId) (installed : Table ProductId Product) :
    Trace → Except Failure Unit → Prop where
  | unreachable (failure : Failure) :
      Sends consumer installed [⟨.connect, .error failure⟩] (.error failure)
  | answered (sent : Except Failure Unit) :
      Sends consumer installed [⟨.connect, .ok ()⟩, ⟨.push consumer installed.values, sent⟩] sent

inductive PushesFor (consumer : ConsumerId) : Trace → Except Failure Push → Prop where
  | updated {installed : Table ProductId Product} {sending : Trace}
      (sends : Sends consumer installed sending (.ok ())) :
      PushesFor consumer (⟨.installed, installed⟩ :: sending ++
        noted [.productsPushed consumer installed.values.length]) (.ok .updated)
  | rejected {installed : Table ProductId Product} {sending : Trace} {failure : Failure}
      (sends : Sends consumer installed sending (.error failure)) (auth : failure.isAuthFailure = true) :
      PushesFor consumer (⟨.installed, installed⟩ :: sending ++
        noted [.identityRejected consumer failure]) (.ok (.authFailed failure))
  | failed {installed : Table ProductId Product} {sending : Trace} {failure : Failure}
      (sends : Sends consumer installed sending (.error failure)) (other : failure.isAuthFailure = false) :
      PushesFor consumer (⟨.installed, installed⟩ :: sending ++ noted []) (.error failure)

theorem PushesFor.isFor {consumer : ConsumerId} {trace : Trace} {outcome : Except Failure Push}
    (pushes : PushesFor consumer trace outcome) :
    ∀ exchange ∈ trace, exchange.request.IsFor consumer := by
  cases pushes with
  | updated sends | rejected sends | failed sends =>
      cases sends <;> simp [noted, Request.IsFor]

inductive Pushes : Trace → Except Failure Push → Prop where
  | unregistered : Pushes [⟨.registered, false⟩] (.ok .skipped)
  | noConsumer : Pushes [⟨.registered, true⟩, ⟨.consumer, none⟩] (.ok .skipped)
  | identified {consumer : ConsumerId} {trace : Trace} {outcome : Except Failure Push}
      (pushes : PushesFor consumer trace outcome) :
      Pushes (⟨.registered, true⟩ :: ⟨.consumer, some consumer⟩ :: trace) outcome

theorem pushesFor_of_failure {consumer : ConsumerId} {installed : Table ProductId Product}
    {sending concluding : Trace} {failure : Failure} {outcome : Except Failure Push}
    (sends : Sends consumer installed sending (.error failure))
    (concluded : Program.Yields (if failure.isAuthFailure = true then do
        Dialogue.note (.identityRejected consumer failure)
        return .ok (.authFailed failure)
      else return .error failure : Dialogue (Except Failure Push)) concluding outcome) :
    PushesFor consumer (⟨.installed, installed⟩ :: sending ++ concluding) outcome := by
  cases auth : failure.isAuthFailure with
  | true =>
      rw [if_pos auth] at concluded
      obtain ⟨noting, final⟩ := Dialogue.yields_note_pure.mp concluded
      subst noting final
      exact .rejected sends auth
  | false =>
      rw [if_neg (by simp [auth])] at concluded
      obtain ⟨empty, final⟩ := Dialogue.yields_pure.mp concluded
      subst empty final
      exact .failed sends auth

theorem pushesFor_of_yields {consumer : ConsumerId} {trace : Trace} {outcome : Except Failure Push}
    (pushed : (pushAs consumer).Yields trace outcome) : PushesFor consumer trace outcome := by
  obtain ⟨installed, afterInstalled, listing, listed⟩ := Dialogue.yields_ask_bind.mp pushed
  obtain ⟨connected, afterConnected, connecting, rest⟩ := Dialogue.yields_ask_bind.mp listed
  subst listing connecting
  cases connected with
  | error failure => exact pushesFor_of_failure (.unreachable failure) rest
  | ok _ =>
      obtain ⟨sent, afterSent, pushing, concluded⟩ := Dialogue.yields_ask_bind.mp rest
      subst pushing
      cases sent with
      | ok _ =>
          obtain ⟨noting, final⟩ := Dialogue.yields_note_pure.mp concluded
          subst noting final
          exact .updated (.answered _)
      | error failure => exact pushesFor_of_failure (.answered _) concluded

theorem pushes_of_yields {trace : Trace} {outcome : Except Failure Push}
    (pushed : pushProducts.Yields trace outcome) : Pushes trace outcome := by
  obtain ⟨registered, afterRegistered, enrolling, enrolled⟩ := Dialogue.yields_ask_bind.mp pushed
  cases registered with
  | false =>
      obtain ⟨empty, final⟩ := Dialogue.yields_pure.mp enrolled
      subst enrolling empty final
      exact .unregistered
  | true =>
      obtain ⟨consumer, afterConsumer, identifying, identified⟩ :=
        Dialogue.yields_ask_bind.mp enrolled
      cases consumer with
      | none =>
          obtain ⟨empty, final⟩ := Dialogue.yields_pure.mp identified
          subst enrolling identifying empty final
          exact .noConsumer
      | some consumer =>
          subst enrolling identifying
          exact .identified (pushesFor_of_yields identified)

theorem PushesFor.yields {consumer : ConsumerId} {trace : Trace} {outcome : Except Failure Push}
    (pushes : PushesFor consumer trace outcome) : (pushAs consumer).Yields trace outcome := by
  cases pushes with
  | updated sends =>
      cases sends
      exact .ask (.ask (.ask (.ask (.done _))))
  | @rejected _ _ failure sends auth =>
      have concluded : Program.Yields (if failure.isAuthFailure = true then do
          Dialogue.note (.identityRejected consumer failure)
          return .ok (.authFailed failure)
        else return .error failure : Dialogue (Except Failure Push))
          (noted [.identityRejected consumer failure]) (.ok (.authFailed failure)) := by
        rw [if_pos auth]
        exact .ask (.done _)
      cases sends with
      | unreachable => exact .ask (.ask concluded)
      | answered => exact .ask (.ask (.ask concluded))
  | @failed _ _ failure sends other =>
      have concluded : Program.Yields (if failure.isAuthFailure = true then do
          Dialogue.note (.identityRejected consumer failure)
          return .ok (.authFailed failure)
        else return .error failure : Dialogue (Except Failure Push)) (noted []) (.error failure) := by
        rw [if_neg (by simp [other])]
        exact .done _
      cases sends with
      | unreachable => exact .ask (.ask concluded)
      | answered => exact .ask (.ask (.ask concluded))

theorem yields_pushProducts {trace : Trace} {outcome : Except Failure Push} :
    pushProducts.Yields trace outcome ↔ Pushes trace outcome := by
  constructor
  · exact pushes_of_yields
  · intro pushes
    cases pushes with
    | unregistered => exact .ask (.done _)
    | noConsumer => exact .ask (.ask (.done _))
    | identified pushes => exact .ask (.ask pushes.yields)

section

variable (w : Watchers) (answers : Source → Bool)

/-- One poll of each watcher of these sources, with its answer. -/
def polls (sources : List Source) : Trace :=
  sources.filterMap fun source => (w.get source).map fun watcher => ⟨.poll watcher, answers source⟩

def changesIn (sources : List Source) : List Source :=
  sources.filter fun source => (w.get source).isSome && answers source

variable {w answers}

theorem polls_cons_of_none {source : Source} (kept : w.get source = none) (rest : List Source) :
    polls w answers (source :: rest) = polls w answers rest := by
  simp [polls, kept]

theorem polls_cons_of_some {source : Source} {watcher : String} (kept : w.get source = some watcher)
    (rest : List Source) : polls w answers (source :: rest) =
      ⟨.poll watcher, answers source⟩ :: polls w answers rest := by
  simp [polls, kept]

theorem changesIn_cons_of_none {source : Source} (kept : w.get source = none) (rest : List Source) :
    changesIn w answers (source :: rest) = changesIn w answers rest := by
  simp [changesIn, kept]

theorem changesIn_cons_of_some {source : Source} {watcher : String} (kept : w.get source = some watcher)
    (rest : List Source) : changesIn w answers (source :: rest) =
      if answers source = true then source :: changesIn w answers rest
      else changesIn w answers rest := by
  simp [changesIn, kept, List.filter_cons]

theorem polls_congr {other : Source → Bool} {sources : List Source}
    (agree : ∀ source ∈ sources, other source = answers source) :
    polls w other sources = polls w answers sources := by
  apply List.filterMap_congr
  intro source member
  rw [agree source member]

theorem changesIn_congr {other : Source → Bool} {sources : List Source}
    (agree : ∀ source ∈ sources, other source = answers source) :
    changesIn w other sources = changesIn w answers sources := by
  apply List.filter_congr
  intro source member
  rw [agree source member]

theorem polls_only (sources : List Source) :
    ∀ exchange ∈ polls w answers sources, ∃ watcher, exchange.request = .poll watcher := by
  intro exchange member
  obtain ⟨source, -, polled⟩ := List.mem_filterMap.mp member
  obtain ⟨watcher, -, same⟩ := Option.map_eq_some_iff.mp polled
  exact ⟨watcher, congrArg Exchange.request same.symm⟩

end

namespace Keeper

inductive PushesIf (settings : Settings) : Trace → Except Failure Push → Prop where
  | off (setting : settings.pushProducts = false) : PushesIf settings [] (.ok .skipped)
  | on {trace : Trace} {outcome : Except Failure Push} (setting : settings.pushProducts = true)
      (pushes : Pushes trace outcome) : PushesIf settings trace outcome

/-- A start: a push, and a load unless the push failed. -/
inductive Starts (settings : Settings) (source : VerdictSource) (watchers : Watchers) (nesting : Nat) :
    Trace → Except Failure (Progress Keeper) → Prop where
  | failed {trace : Trace} {failure : Failure} (pushes : PushesIf settings trace (.error failure)) :
      Starts settings source watchers nesting trace (.error failure)
  | loaded {pushing loading : Trace} {lastPush : Push} {progress : Progress Monitor}
      (pushes : PushesIf settings pushing (.ok lastPush))
      (loaded : (Monitor.start settings source).Yields loading progress) :
      Starts settings source watchers nesting (pushing ++ loading)
        (.ok (progress.map fun monitor => { monitor, watchers, nesting, lastPush }))

inductive PushesAgain (k : Keeper) : Trace → Keeper → Except Failure Push → Prop where
  | done {trace : Trace} {lastPush : Push} (pushes : PushesIf k.monitor.settings trace (.ok lastPush)) :
      PushesAgain k trace { k with lastPush } (.ok lastPush)
  | failed {trace : Trace} {failure : Failure}
      (pushes : PushesIf k.monitor.settings trace (.error failure)) :
      PushesAgain k trace k (.error failure)

def complaints : Except Failure Push → List Notice
  | .ok _ => []
  | .error failure => [.pushFailed failure]

/-- A refresh of a source, with the keeper after it. -/
inductive Refreshes (k : Keeper) : Source → Trace → Keeper → Prop where
  | products {k' : Keeper} {pushing : Trace} {outcome : Except Failure Push}
      (pushed : k.PushesAgain pushing k' outcome) :
      Refreshes k .products (⟨.refreshProducts, ()⟩ :: pushing ++ noted (complaints outcome)) k'
  | entitlements : Refreshes k .entitlements [⟨.refreshCertificates, ()⟩] k
  | consumer : Refreshes k .consumer [⟨.reloadIdentity, ()⟩, ⟨.resetConnection, ()⟩] k

inductive Loads (k : Keeper) : Trace → Progress Keeper → Prop where
  | within {trace : Trace} {inner : Progress Monitor} (loads : k.monitor.Loads trace inner) :
      Loads k trace (inner.map fun monitor => { k with monitor })

inductive Handles (k : Keeper) (source : Source) : Trace → Progress Keeper → Prop where
  | loaded {k' : Keeper} {refreshing loading : Trace} {progress : Progress Keeper}
      (refreshed : k.Refreshes source refreshing k') (loaded : k'.Loads loading progress) :
      Handles k source (⟨.note (.sourceChanged source), ()⟩ :: refreshing ++ loading) progress

/-- Changes handled one after the other, up to the first whose load stops short. -/
inductive HandlesAll : Keeper → List Source → Trace → Progress Keeper → Prop where
  | nil (k : Keeper) : HandlesAll k [] [] (.finished k)
  | stopped {k k' : Keeper} {source : Source} {rest : List Source} {trace : Trace}
      (handled : k.Handles source trace (.stopped k')) :
      HandlesAll k (source :: rest) trace (.stopped k')
  | cons {k k' : Keeper} {source : Source} {rest : List Source} {first later : Trace}
      {progress : Progress Keeper} (handled : k.Handles source first (.finished k'))
      (others : HandlesAll k' rest later progress) :
      HandlesAll k (source :: rest) (first ++ later) progress

/-- The observers told: a look at the registration, a note, and one pass over the registered callbacks. -/
inductive Notifies (k : Keeper) : Trace → Keeper → Prop where
  | told (registered : Bool) {pass : Pass} (lawful : pass.Lawful k.nesting)
      (called : pass.called = k.observers.callbacks) :
      Notifies k (⟨.registered, registered⟩ ::
        noted [.recomputed k.observers.size (k.monitor.status registered)] ++ pass.trace)
        { k with observers := k.observers.replay pass.trace }

/-- What follows on work: the observers are told once, unless the work stopped short. -/
inductive Tells : Progress Keeper → Trace → Progress Keeper → Prop where
  | stopped (k : Keeper) : Tells (.stopped k) [] (.stopped k)
  | told {k k' : Keeper} {trace : Trace} (told : k.notify.Yields trace k')
      (notifies : k.Notifies trace k') : Tells (.finished k) trace (.finished k')

/-- A check: every watcher is polled, then each change is handled, then the observers are told. -/
inductive Checks (k : Keeper) : Trace → Progress Keeper → Prop where
  | unchanged {answers : Source → Bool} (none : changesIn k.watchers answers Source.all = []) :
      Checks k (polls k.watchers answers Source.all) (.finished k)
  | changed {answers : Source → Bool} {handling telling : Trace} {before after : Progress Keeper}
      (some : changesIn k.watchers answers Source.all ≠ [])
      (handled : k.HandlesAll (changesIn k.watchers answers Source.all) handling before)
      (told : Tells before telling after) :
      Checks k (polls k.watchers answers Source.all ++ handling ++ telling) after

variable {k k' : Keeper} {trace : Trace} {progress : Progress Keeper}

theorem yields_load : k.load.Yields trace progress ↔ k.Loads trace progress := by
  constructor
  · intro loaded
    obtain ⟨inner, within, final⟩ := Dialogue.yields_bind_pure.mp loaded
    subst final
    exact .within (Monitor.yields_load.mp within)
  · intro loads
    cases loads with
    | within loads => exact Dialogue.yields_bind_pure.mpr ⟨_, Monitor.yields_load.mpr loads, rfl⟩

theorem starts_of_yields {settings : Settings} {source : VerdictSource} {watchers : Watchers}
    {nesting : Nat} {outcome : Except Failure (Progress Keeper)}
    (started : (start settings source watchers nesting).Yields trace outcome) :
    Starts settings source watchers nesting trace outcome := by
  have begins {pushing loading : Trace} {lastPush : Push}
      (pushes : PushesIf settings pushing (.ok lastPush))
      (begun : (Monitor.start settings source >>= fun progress =>
        pure (.ok (progress.map fun monitor => { monitor, watchers, nesting, lastPush })) :
          Dialogue (Except Failure (Progress Keeper))).Yields loading outcome) :
      Starts settings source watchers nesting (pushing ++ loading) outcome := by
    obtain ⟨inner, loaded, final⟩ := Dialogue.yields_bind_pure.mp begun
    rw [final]
    exact .loaded pushes loaded
  unfold start at started
  split at started
  · rename_i setting
    obtain ⟨pushing, answer, later, same, pushed, rest⟩ := Dialogue.yields_bind.mp started
    have pushes : PushesIf settings pushing answer := .on setting (yields_pushProducts.mp pushed)
    subst same
    cases answer with
    | error failure =>
        obtain ⟨empty, final⟩ := Dialogue.yields_pure.mp rest
        subst empty final
        rw [List.append_nil]
        exact .failed pushes
    | ok lastPush => exact begins pushes rest
  · rename_i setting
    exact begins (.off (Bool.eq_false_iff.mpr setting)) started

theorem pushesAgain_of_yields {outcome : Except Failure Push}
    (pushed : k.push.Yields trace (k', outcome)) : k.PushesAgain trace k' outcome := by
  unfold push at pushed
  split at pushed
  · rename_i setting
    obtain ⟨pushing, answer, later, same, sent, rest⟩ := Dialogue.yields_bind.mp pushed
    have pushes : PushesIf k.monitor.settings pushing answer := .on setting (yields_pushProducts.mp sent)
    subst same
    cases answer with
    | ok lastPush =>
        obtain ⟨empty, final⟩ := Dialogue.yields_pure.mp rest
        cases final
        rw [empty, List.append_nil]
        exact .done pushes
    | error failure =>
        obtain ⟨empty, final⟩ := Dialogue.yields_pure.mp rest
        cases final
        rw [empty, List.append_nil]
        exact .failed pushes
  · rename_i setting
    obtain ⟨empty, final⟩ := Dialogue.yields_pure.mp pushed
    cases final
    rw [empty]
    exact .done (.off (Bool.eq_false_iff.mpr setting))

theorem PushesIf.yields_push {outcome : Except Failure Push}
    (pushes : PushesIf k.monitor.settings trace outcome) :
    k.push.Yields trace (match outcome with
      | .ok lastPush => ({ k with lastPush }, .ok lastPush)
      | .error failure => (k, .error failure)) := by
  unfold push
  cases pushes with
  | off setting =>
      rw [setting]
      exact .done _
  | on setting pushes =>
      rw [setting]
      refine Dialogue.yields_bind.mpr
        ⟨trace, outcome, [], (List.append_nil _).symm, yields_pushProducts.mpr pushes, ?_⟩
      cases outcome with
      | ok lastPush => exact .done _
      | error failure => exact .done _

theorem yields_push {outcome : Except Failure Push} :
    k.push.Yields trace (k', outcome) ↔ k.PushesAgain trace k' outcome := by
  constructor
  · exact pushesAgain_of_yields
  · intro pushes
    cases pushes with
    | done pushes => exact pushes.yields_push
    | failed pushes => exact pushes.yields_push

theorem yields_complaints {outcome : Except Failure Push} :
    Program.Yields (match outcome with
      | .ok _ => pure k'
      | .error failure => do
        Dialogue.note (.pushFailed failure)
        return k' : Dialogue Keeper) trace k ↔ trace = noted (complaints outcome) ∧ k = k' := by
  cases outcome with
  | ok _ => exact Dialogue.yields_pure
  | error failure => exact Dialogue.yields_note_pure

theorem yields_refresh_products :
    (k.refresh .products).Yields trace k' ↔ k.Refreshes .products trace k' := by
  constructor
  · intro refreshed
    have ⟨_, afterRefresh, refreshing, rest⟩ := Dialogue.yields_ask_bind.mp refreshed
    have ⟨pushing, ⟨pushedKeeper, outcome⟩, later, same, pushed, kept⟩ := Dialogue.yields_bind.mp rest
    have ⟨noting, final⟩ := yields_complaints.mp kept
    subst refreshing same noting final
    exact .products (yields_push.mp pushed)
  · intro refreshed
    cases refreshed with
    | @products _ pushing outcome pushed =>
        have pushed := yields_push.mpr pushed
        have kept := (@yields_complaints k' k' _ outcome).mpr ⟨rfl, rfl⟩
        apply Dialogue.yields_ask_bind.mpr
        exact ⟨(), _, rfl, Dialogue.yields_bind.mpr ⟨_, _, _, rfl, pushed, kept⟩⟩

theorem yields_refresh {source : Source} :
    (k.refresh source).Yields trace k' ↔ k.Refreshes source trace k' := by
  cases source with
  | products => exact yields_refresh_products
  | entitlements =>
      constructor
      · intro refreshed
        have ⟨_, later, refreshing, rest⟩ := Dialogue.yields_ask_bind.mp refreshed
        have ⟨empty, final⟩ := Dialogue.yields_pure.mp rest
        subst refreshing empty final
        exact .entitlements
      · intro refreshed
        cases refreshed
        exact .ask (.done k)
  | consumer =>
      constructor
      · intro refreshed
        have ⟨_, afterReload, reloading, reloaded⟩ := Dialogue.yields_ask_bind.mp refreshed
        have ⟨_, afterReset, resetting, rest⟩ := Dialogue.yields_ask_bind.mp reloaded
        have ⟨empty, final⟩ := Dialogue.yields_pure.mp rest
        subst reloading resetting empty final
        exact .consumer
      · intro refreshed
        cases refreshed
        exact .ask (.ask (.done k))

theorem yields_handleChange {source : Source} :
    (k.handleChange source).Yields trace progress ↔ k.Handles source trace progress := by
  constructor
  · intro handled
    obtain ⟨afterNote, noting, rest⟩ := Dialogue.yields_note_bind.mp handled
    obtain ⟨refreshing, refreshedKeeper, loading, same, refreshed, loaded⟩ :=
      Dialogue.yields_bind.mp rest
    subst noting same
    exact .loaded (yields_refresh.mp refreshed) (yields_load.mp loaded)
  · intro handled
    cases handled with
    | loaded refreshed loaded =>
        have rest := Dialogue.yields_bind.mpr
          ⟨_, _, _, rfl, yields_refresh.mpr refreshed, yields_load.mpr loaded⟩
        exact Dialogue.yields_note_bind.mpr ⟨_, rfl, rest⟩

theorem yields_handleChanges {sources : List Source} :
    (k.handleChanges sources).Yields trace progress ↔ k.HandlesAll sources trace progress := by
  induction sources generalizing k trace with
  | nil =>
      constructor
      · intro handled
        obtain ⟨empty, final⟩ := Program.yields_done.mp handled
        subst empty final
        exact .nil k
      · intro handled
        cases handled
        exact .done _
  | cons source rest ih =>
      constructor
      · intro handled
        obtain ⟨first, change, later, same, changed, others⟩ := Dialogue.yields_bind.mp handled
        have handles := yields_handleChange.mp changed
        subst same
        cases change with
        | finished k' => exact .cons handles (ih.mp others)
        | stopped k' =>
            obtain ⟨empty, final⟩ := Dialogue.yields_pure.mp others
            subst empty final
            rw [List.append_nil]
            exact .stopped handles
      · intro handled
        cases handled with
        | stopped handled =>
            refine Dialogue.yields_bind.mpr
              ⟨_, _, [], (List.append_nil _).symm, yields_handleChange.mpr handled, ?_⟩
            exact Dialogue.yields_pure.mpr ⟨rfl, rfl⟩
        | cons handled others =>
            exact Dialogue.yields_bind.mpr
              ⟨_, _, _, rfl, yields_handleChange.mpr handled, ih.mpr others⟩

theorem notifies_of_yields (told : k.notify.Yields trace k') : k.Notifies trace k' := by
  obtain ⟨registered, afterRegistered, enrolling, noting⟩ := Dialogue.yields_ask_bind.mp told
  obtain ⟨passing, noted, rest⟩ := Dialogue.yields_note_bind.mp noting
  obtain ⟨observers, passed, final⟩ := Dialogue.yields_bind_pure.mp rest
  obtain ⟨pass, traced, lawful, called, explained⟩ :=
    Observers.faithful_notify k.nesting k.observers _ _ passed
  have replayed := explained.final
  subst enrolling noted final replayed traced
  exact .told registered lawful called

theorem yields_notifyAfter {before : Progress Keeper} :
    (notifyAfter before).Yields trace progress ↔ Tells before trace progress := by
  cases before with
  | stopped k =>
      constructor
      · intro told
        obtain ⟨empty, final⟩ := Program.yields_done.mp told
        subst empty final
        exact .stopped k
      · intro told
        cases told
        exact .done _
  | finished k =>
      constructor
      · intro told
        obtain ⟨k', notified, final⟩ := Dialogue.yields_bind_pure.mp told
        subst final
        exact .told notified (notifies_of_yields notified)
      · intro told
        cases told with
        | told notified _ => exact Dialogue.yields_bind_pure.mpr ⟨_, notified, rfl⟩

theorem yields_onChange : k.onChange.Yields trace progress ↔
    ∃ loading before telling, trace = loading ++ telling ∧ k.Loads loading before ∧
      Tells before telling progress := by
  unfold onChange
  simp only [Dialogue.yields_bind, yields_load, yields_notifyAfter]

theorem yields_pollAll {w : Watchers} {sources : List Source} (distinct : sources.Nodup)
    {changed : List Source} :
    (pollAll (sources.filterMap fun source => (w.get source).map (source, ·))).Yields trace changed ↔
      ∃ answers, trace = polls w answers sources ∧ changed = changesIn w answers sources := by
  induction sources generalizing trace changed with
  | nil =>
      constructor
      · intro polled
        exact ⟨fun _ => false, Program.yields_done.mp polled⟩
      · intro polled
        obtain ⟨answers, shape⟩ := polled
        exact Program.yields_done.mpr shape
  | cons source rest ih =>
      have ⟨apart, distinct⟩ := List.nodup_cons.mp distinct
      cases kept : w.get source with
      | none =>
          simp only [List.filterMap_cons, kept, Option.map_none, polls_cons_of_none kept,
            changesIn_cons_of_none kept]
          exact ih distinct
      | some watcher =>
          simp only [List.filterMap_cons, kept, Option.map_some, polls_cons_of_some kept,
            changesIn_cons_of_some kept]
          constructor
          · intro polling
            obtain ⟨answer, later, first, others⟩ := Dialogue.yields_ask_bind.mp polling
            obtain ⟨changes, polledRest, final⟩ := Dialogue.yields_bind_pure.mp others
            obtain ⟨answers, shape, same⟩ := (ih distinct).mp polledRest
            -- the other sources keep their answers
            let joined := Function.update answers source answer
            have here : joined source = answer := Function.update_self source answer answers
            have agree : ∀ other ∈ rest, joined other = answers other := by
              intro other member
              have differs : other ≠ source := fun equal => apart (equal ▸ member)
              exact Function.update_of_ne differs answer answers
            refine ⟨joined, ?_, ?_⟩
            · rw [polls_congr agree, here, first, shape]
            · rw [changesIn_congr agree, here, final, same]
          · intro shape
            obtain ⟨answers, same, final⟩ := shape
            have polledRest := (ih distinct).mpr ⟨answers, rfl, rfl⟩
            exact Dialogue.yields_ask_bind.mpr
              ⟨answers source, _, same, Dialogue.yields_bind_pure.mpr ⟨_, polledRest, final⟩⟩

theorem yields_forceCheck : k.forceCheck.Yields trace progress ↔ k.Checks trace progress := by
  have polled {first : Trace} {changed : List Source} :
      (pollAll k.watchers.toList).Yields first changed ↔ ∃ answers,
        first = polls k.watchers answers Source.all ∧
        changed = changesIn k.watchers answers Source.all := yields_pollAll (by decide)
  constructor
  · intro checked
    obtain ⟨polling, changed, later, same, polledAll, rest⟩ := Dialogue.yields_bind.mp checked
    obtain ⟨answers, shape, found⟩ := polled.mp polledAll
    subst same shape
    cases changed with
    | nil =>
        obtain ⟨empty, final⟩ := Dialogue.yields_pure.mp rest
        subst empty final
        rw [List.append_nil]
        exact .unchanged found.symm
    | cons source others =>
        obtain ⟨handling, before, telling, same, handled, told⟩ := Dialogue.yields_bind.mp rest
        have handles := yields_handleChanges.mp handled
        have some : changesIn k.watchers answers Source.all ≠ [] := by
          rw [← found]
          exact List.cons_ne_nil source others
        rw [found] at handles
        subst same
        rw [← List.append_assoc]
        exact .changed some handles (yields_notifyAfter.mp told)
  · intro checks
    cases checks with
    | @unchanged answers none =>
        apply Dialogue.yields_bind.mpr
        refine ⟨_, _, [], (List.append_nil _).symm, polled.mpr ⟨answers, rfl, rfl⟩, ?_⟩
        rw [none]
        exact Dialogue.yields_pure.mpr ⟨rfl, rfl⟩
    | @changed answers handling telling before after some handled told =>
        apply Dialogue.yields_bind.mpr
        refine ⟨_, _, _, List.append_assoc _ _ _, polled.mpr ⟨answers, rfl, rfl⟩, ?_⟩
        have handling := yields_handleChanges.mpr handled
        have telling := yields_notifyAfter.mpr told
        cases changes : changesIn k.watchers answers Source.all with
        | nil => exact absurd changes some
        | cons source others =>
            rw [changes] at handling
            exact Dialogue.yields_bind.mpr ⟨_, _, _, rfl, handling, telling⟩

def fixed (k : Keeper) : (Settings × VerdictSource) × Watchers × Nat :=
  (k.monitor.fixed, k.watchers, k.nesting)

theorem fixed_start {settings : Settings} {source : VerdictSource} {watchers : Watchers} {nesting : Nat}
    (started : (start settings source watchers nesting).Yields trace (.ok progress)) :
    progress.state.fixed = ((settings, source), watchers, nesting) := by
  cases starts_of_yields started with
  | loaded pushes loaded =>
      rw [Progress.state_map]
      exact congrArg (·, watchers, nesting) (Monitor.yields_load.mp loaded).fixed

theorem PushesAgain.fixed {outcome : Except Failure Push} (pushes : k.PushesAgain trace k' outcome) :
    k'.fixed = k.fixed := by
  cases pushes with
  | done pushes => rfl
  | failed pushes => rfl

theorem Refreshes.fixed {source : Source} (refreshes : k.Refreshes source trace k') :
    k'.fixed = k.fixed := by
  cases refreshes with
  | products pushed => exact pushed.fixed
  | entitlements => rfl
  | consumer => rfl

theorem Loads.fixed (loads : k.Loads trace progress) : progress.state.fixed = k.fixed := by
  cases loads with
  | within loads =>
      rw [Progress.state_map]
      exact congrArg (·, k.watchers, k.nesting) loads.fixed

theorem Handles.fixed {source : Source} (handles : k.Handles source trace progress) :
    progress.state.fixed = k.fixed := by
  cases handles with
  | loaded refreshed loaded => exact loaded.fixed.trans refreshed.fixed

theorem HandlesAll.fixed {sources : List Source} (handles : k.HandlesAll sources trace progress) :
    progress.state.fixed = k.fixed := by
  induction handles with
  | nil k => rfl
  | stopped handled => exact handled.fixed
  | cons handled others ih => exact ih.trans handled.fixed

theorem Notifies.fixed (notifies : k.Notifies trace k') : k'.fixed = k.fixed := by
  cases notifies
  rfl

theorem Tells.fixed {before : Progress Keeper} (tells : Tells before trace progress) :
    progress.state.fixed = before.state.fixed := by
  cases tells with
  | stopped k => rfl
  | told told notifies => exact notifies.fixed

theorem Checks.fixed (checks : k.Checks trace progress) : progress.state.fixed = k.fixed := by
  cases checks with
  | unchanged none => rfl
  | changed some handled told => exact told.fixed.trans handled.fixed

theorem fixed_onChange (changed : k.onChange.Yields trace progress) :
    progress.state.fixed = k.fixed := by
  have ⟨loading, before, telling, same, loaded, tells⟩ := yields_onChange.mp changed
  exact tells.fixed.trans loaded.fixed

end Keeper

end Coverage
