import Coverage.Proofs.Course.Keeper
import Coverage.Proofs.Finding
import Coverage.Proofs.Run
/-!
Steps as loads: whatever a monitor or a keeper is asked to do falls into loads and into traces that hold
none, and only the loads change the monitor. What holds of loads and can be joined along a trace holds of
every step and of every run.
-/

namespace Coverage

open Scenario (Subject)

/-- Work on a monitor that falls into loads and traces that hold none. -/
inductive Reloads : Monitor → Trace → Progress Monitor → Prop where
  | idle {m : Monitor} {trace : Trace} (finds : Finds trace []) : Reloads m trace (.finished m)
  | load {m : Monitor} {trace : Trace} {progress : Progress Monitor} (loads : m.Loads trace progress) :
      Reloads m trace progress
  | append {m m' : Monitor} {first later : Trace} {progress : Progress Monitor}
      (before : Reloads m first (.finished m')) (after : Reloads m' later progress) :
      Reloads m (first ++ later) progress

theorem Reloads.idle_of_eq {m m' : Monitor} {trace : Trace} (finds : Finds trace []) (same : m' = m) :
    Reloads m trace (.finished m') := by
  rw [same]
  exact .idle finds

theorem Progress.map_map {σ τ υ : Type} (f : σ → τ) (g : τ → υ) (progress : Progress σ) :
    (progress.map f).map g = progress.map fun s => g (f s) := by
  cases progress with
  | finished s => rfl
  | stopped s => rfl

theorem Progress.map_id {σ : Type} (progress : Progress σ) : (progress.map fun s => s) = progress := by
  cases progress with
  | finished s => rfl
  | stopped s => rfl

/-- A push lists what is installed, but then asks for a connection right away: it is no load. -/
theorem PushesFor.finds {consumer : ConsumerId} {trace : Trace} {outcome : Except Failure Push}
    (pushes : PushesFor consumer trace outcome) : Finds trace [] := by
  cases pushes with
  | updated sends =>
      cases sends
      rfl
  | rejected sends | failed sends =>
      cases sends with
      | unreachable failure => rfl
      | answered => rfl

theorem Pushes.finds {trace : Trace} {outcome : Except Failure Push} (pushes : Pushes trace outcome) :
    Finds trace [] := by
  cases pushes with
  | unregistered => rfl
  | noConsumer => rfl
  | @identified consumer rest _ pushes =>
      have asked : Finds [⟨.registered, true⟩, ⟨.consumer, some consumer⟩] [] := rfl
      exact asked.append pushes.finds

namespace Keeper

variable {k k' : Keeper} {trace : Trace} {progress : Progress Keeper}

theorem PushesIf.finds {settings : Settings} {outcome : Except Failure Push}
    (pushes : PushesIf settings trace outcome) : Finds trace [] := by
  cases pushes with
  | off setting => rfl
  | on setting pushes => exact pushes.finds

theorem PushesAgain.finds {outcome : Except Failure Push} (pushes : k.PushesAgain trace k' outcome) :
    Finds trace [] ∧ k'.monitor = k.monitor := by
  cases pushes with
  | done pushes => exact ⟨pushes.finds, rfl⟩
  | failed pushes => exact ⟨pushes.finds, rfl⟩

theorem Refreshes.finds {source : Source} (refreshes : k.Refreshes source trace k') :
    Finds trace [] ∧ k'.monitor = k.monitor := by
  cases refreshes with
  | products pushed =>
      have ⟨finds, monitor⟩ := pushed.finds
      have asked : Finds [⟨.refreshProducts, ()⟩] [] := rfl
      exact ⟨(asked.append finds).append (scan_noted .idle _), monitor⟩
  | entitlements => exact ⟨rfl, rfl⟩
  | consumer => exact ⟨rfl, rfl⟩

theorem Loads.finds (loads : k.Loads trace progress) : ∃ finding, Finds trace [finding] := by
  cases loads with
  | within loads =>
      have ⟨finding, finds, revised⟩ := loads.finds
      exact ⟨finding, finds⟩

theorem Loads.reloads (loads : k.Loads trace progress) :
    Reloads k.monitor trace (progress.map (·.monitor)) := by
  cases loads with
  | within loads =>
      rw [Progress.map_map, Progress.map_id]
      exact .load loads

theorem Handles.finds {source : Source} (handles : k.Handles source trace progress) :
    ∃ finding, Finds trace [finding] := by
  cases handles with
  | loaded refreshed loaded =>
      have note : Finds [⟨.note (.sourceChanged source), ()⟩] [] := rfl
      have ⟨finding, finds⟩ := loaded.finds
      exact ⟨finding, (note.append refreshed.finds.1).append finds⟩

theorem Handles.reloads {source : Source} (handles : k.Handles source trace progress) :
    Reloads k.monitor trace (progress.map (·.monitor)) := by
  cases handles with
  | loaded refreshed loaded =>
      have ⟨finds, monitor⟩ := refreshed.finds
      have note : Finds [⟨.note (.sourceChanged source), ()⟩] [] := rfl
      have load := loaded.reloads
      rw [monitor] at load
      exact .append (.idle (note.append finds)) load

/-- There is one load for each change, up to the first that stops short. -/
theorem HandlesAll.finds {sources : List Source} (handles : k.HandlesAll sources trace progress) :
    ∃ found, Finds trace found ∧ found.length ≤ sources.length ∧
      ∀ k', progress = .finished k' → found.length = sources.length := by
  induction handles with
  | nil k => exact ⟨[], rfl, Nat.le_refl 0, fun k' finished => rfl⟩
  | stopped handled =>
      have ⟨finding, finds⟩ := handled.finds
      refine ⟨[finding], finds, Nat.le_add_left 1 _, ?_⟩
      intro k' finished
      cases finished
  | cons handled others ih =>
      have ⟨finding, finds⟩ := handled.finds
      have ⟨found, later, bound, exact⟩ := ih
      refine ⟨finding :: found, finds.append later, Nat.succ_le_succ bound, ?_⟩
      intro k' finished
      exact congrArg (· + 1) (exact k' finished)

theorem HandlesAll.reloads {sources : List Source} (handles : k.HandlesAll sources trace progress) :
    Reloads k.monitor trace (progress.map (·.monitor)) := by
  induction handles with
  | nil k => exact .idle rfl
  | stopped handled => exact handled.reloads
  | cons handled others ih => exact .append handled.reloads ih

theorem Notifies.finds (notifies : k.Notifies trace k') : Finds trace [] ∧ k'.monitor = k.monitor := by
  cases notifies with
  | @told registered pass lawful called =>
      have before : Finds (⟨.registered, registered⟩ ::
        noted [.recomputed k.observers.size (k.monitor.status registered)]) [] := rfl
      have calls : Finds pass.trace [] := by
        apply finds_nothing
        intro exchange member same
        have passing := pass.asks exchange member
        rw [same] at passing
        exact passing
      exact ⟨before.append calls, rfl⟩

theorem Tells.finds {before : Progress Keeper} (tells : Tells before trace progress) :
    Finds trace [] := by
  cases tells with
  | stopped k => rfl
  | told _ notifies => exact notifies.finds.1

theorem Tells.reloads {m : Monitor} {first later : Trace} {before after : Progress Keeper}
    (tells : Tells before later after) (work : Reloads m first (before.map (·.monitor))) :
    Reloads m (first ++ later) (after.map (·.monitor)) := by
  cases tells with
  | stopped k =>
      rw [List.append_nil]
      exact work
  | told _ notifies =>
      have ⟨finds, monitor⟩ := notifies.finds
      exact .append work (.idle_of_eq finds monitor)

theorem reloads_onChange (changed : k.onChange.Yields trace progress) :
    Reloads k.monitor trace (progress.map (·.monitor)) := by
  obtain ⟨loading, before, telling, same, loaded, tells⟩ := yields_onChange.mp changed
  rw [same]
  exact tells.reloads loaded.reloads

theorem finds_onChange (changed : k.onChange.Yields trace progress) :
    ∃ finding, Finds trace [finding] := by
  have ⟨loading, before, telling, same, loaded, tells⟩ := yields_onChange.mp changed
  have ⟨finding, finds⟩ := loaded.finds
  rw [same]
  exact ⟨finding, finds.append tells.finds⟩

theorem finds_polls (w : Watchers) (answers : Source → Bool) (sources : List Source) :
    Finds (polls w answers sources) [] := by
  apply finds_nothing
  intro exchange member same
  obtain ⟨watcher, polled⟩ := polls_only sources exchange member
  rw [same] at polled
  cases polled

/-- A check loads once for each change that the polls report. -/
theorem Checks.finds (checks : k.Checks trace progress) :
    ∃ answers later found, trace = polls k.watchers answers Source.all ++ later ∧ Finds trace found ∧
      found.length ≤ (changesIn k.watchers answers Source.all).length ∧
      ∀ k', progress = .finished k' →
        found.length = (changesIn k.watchers answers Source.all).length := by
  cases checks with
  | @unchanged answers none =>
      refine ⟨answers, [], [], (List.append_nil _).symm, finds_polls _ _ _, Nat.zero_le _, ?_⟩
      intro k' finished
      rw [none]
      rfl
  | @changed answers handling telling before after some handled told =>
      have ⟨found, finds, bound, exact⟩ := handled.finds
      have polled := (finds_polls k.watchers answers Source.all).append finds
      have whole := polled.append told.finds
      rw [List.nil_append, List.append_nil] at whole
      refine ⟨answers, _, found, List.append_assoc _ _ _, whole, bound, ?_⟩
      intro k' finished
      -- where the telling finishes, the work before it has
      cases told with
      | stopped k => cases finished
      | told _ notifies => exact exact _ rfl

theorem Checks.reloads (checks : k.Checks trace progress) :
    Reloads k.monitor trace (progress.map (·.monitor)) := by
  have quiet (answers : Source → Bool) := finds_polls k.watchers answers Source.all
  cases checks with
  | unchanged => exact .idle (quiet _)
  | @changed answers _ _ _ _ some handled told =>
      exact told.reloads (.append (.idle (quiet answers)) handled.reloads)

theorem reloads_start {settings : Settings} {source : VerdictSource} {watchers : Watchers}
    {nesting : Nat} (started : (start settings source watchers nesting).Yields trace (.ok progress)) :
    Reloads { settings, source } trace (progress.map (·.monitor)) := by
  cases starts_of_yields started with
  | @loaded pushing loading lastPush inner pushes loaded =>
      rw [Progress.map_map, Progress.map_id]
      exact .append (.idle pushes.finds) (.load (Monitor.yields_load.mp loaded))

end Keeper

theorem Quiet.finds {s s' : Subject} {trace : Trace} (quiet : Quiet s trace s') :
    Finds trace [] ∧ s'.monitorOf = s.monitorOf := by
  cases quiet with
  | @query s query _ _ asked =>
      have idle : (query.ask s.monitorOf).Keeps (· ≠ .installed) :=
        query.keeps_ask (by simp) (by simp) s.monitorOf
      exact ⟨finds_nothing (idle.exchanges asked), rfl⟩
  | hasEntitlements asked =>
      have idle : Keeper.hasEntitlements.Keeps (· ≠ .installed) := .ask (by simp) fun _ => .done _
      exact ⟨finds_nothing (idle.exchanges asked), rfl⟩
  | push pushed => exact (Keeper.yields_push.mp pushed).finds
  | notify told => exact (Keeper.notifies_of_yields told).finds
  | addCallback cb => exact ⟨rfl, rfl⟩
  | removeCallback cb => exact ⟨rfl, rfl⟩

/-- A step changes the monitor only by the loads in it. -/
theorem Step.reloads {s : Subject} {trace : Trace} {progress : Progress Subject}
    (step : Step s trace progress) : Reloads s.monitorOf trace (progress.map (·.monitorOf)) := by
  cases step with
  | quiet quiet =>
      obtain ⟨finds, monitor⟩ := quiet.finds
      exact .idle_of_eq finds monitor
  | loadMonitor loaded =>
      rw [Progress.map_map]
      show Reloads _ trace (Progress.map (fun m => m) _)
      rw [Progress.map_id]
      exact .load (Monitor.yields_load.mp loaded)
  | load loaded =>
      rw [Progress.map_map]
      exact (Keeper.yields_load.mp loaded).reloads
  | onChange changed =>
      rw [Progress.map_map]
      exact Keeper.reloads_onChange changed
  | handleChange handled =>
      rw [Progress.map_map]
      exact (Keeper.yields_handleChange.mp handled).reloads
  | forceCheck checked =>
      rw [Progress.map_map]
      exact (Keeper.yields_forceCheck.mp checked).reloads

theorem Run.reloads {trace : Trace} {progress : Progress Subject} (run : Run trace progress) :
    ∃ settings source, Reloads { settings, source } trace (progress.map (·.monitorOf)) := by
  induction run with
  | @monitor settings source _ _ started =>
      refine ⟨settings, source, ?_⟩
      rw [Progress.map_map]
      show Reloads _ _ (Progress.map (fun m => m) _)
      rw [Progress.map_id]
      exact .load (Monitor.yields_load.mp started)
  | @keeper settings source _ _ _ _ started =>
      refine ⟨settings, source, ?_⟩
      rw [Progress.map_map]
      exact Keeper.reloads_start started
  | step run next ih =>
      obtain ⟨settings, source, before⟩ := ih
      exact ⟨settings, source, .append before next.reloads⟩

end Coverage
