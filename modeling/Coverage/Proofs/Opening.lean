import Coverage.Proofs.Contact
/-!
How a keeper starts. What comes of the push is settled by its first exchanges, and it alone can make the
start fail; the first load follows it and is the load of a plain monitor.
-/

namespace Coverage

def Request.isVerdict : Request → Bool
  | .verdict _ _ | .storedVerdict _ _ => true
  | _ => false

def Request.isPush : Request → Bool
  | .push _ _ => true
  | _ => false

theorem noted_noPush (notices : List Notice) :
    ∀ exchange ∈ noted notices, exchange.request.isPush = false := by
  simp [noted, Request.isPush]

theorem filter_eq_nil_of_noPush {trace : Trace}
    (quiet : ∀ exchange ∈ trace, exchange.request.isPush = false) :
    trace.filter (·.request.isPush) = [] := by
  simpa [List.filter_eq_nil_iff] using quiet

/-- What is asked before the products of a consumer are sent. -/
def enquiry (consumer : ConsumerId) (installed : Table ProductId Product) : Trace :=
  [⟨.registered, true⟩, ⟨.consumer, some consumer⟩, ⟨.installed, installed⟩]

def Sent (settings : Settings) (trace : Trace) (sent : Except Failure Unit) : Prop :=
  settings.pushProducts = true ∧ ∃ consumer installed sending, Sends consumer installed sending sent ∧
    enquiry consumer installed ++ sending <+: trace

inductive Unsent (settings : Settings) (trace : Trace) : Prop where
  | off (setting : settings.pushProducts = false)
  | unregistered (first : [⟨.registered, false⟩] <+: trace)
  | noConsumer (first : [⟨.registered, true⟩, ⟨.consumer, none⟩] <+: trace)

def pushOutcome : Except Failure Unit → Except Failure Push
  | .ok _ => .ok .updated
  | .error failure => if failure.isAuthFailure = true then .ok (.authFailed failure) else .error failure

section

variable {settings : Settings} {trace : Trace} {sent : Except Failure Unit}

theorem Sent.unique {other : Except Failure Unit} (first : Sent settings trace sent)
    (also : Sent settings trace other) : sent = other := by
  obtain ⟨-, consumer, installed, sending, sends, rest, rfl⟩ := first
  obtain ⟨-, otherConsumer, otherInstalled, otherSending, sendsToo, otherRest, same⟩ := also
  cases sends <;> cases sendsToo <;> cases same <;> rfl

theorem Unsent.not_sent (unsent : Unsent settings trace) : ¬Sent settings trace sent := by
  rintro ⟨setting, consumer, installed, sending, sends, rest, rfl⟩
  cases unsent with
  | off other => simp [setting] at other
  | unregistered first =>
      obtain ⟨_, same⟩ := first
      cases same
  | noConsumer first =>
      obtain ⟨_, same⟩ := first
      cases same

/-- What is known of a push from its first exchanges. -/
inductive Settles (settings : Settings) (trace : Trace) : Except Failure Push → Prop where
  | unsent (unsent : Unsent settings trace) : Settles settings trace (.ok .skipped)
  | sent {sent : Except Failure Unit} (hasSent : Sent settings trace sent) :
      Settles settings trace (pushOutcome sent)

theorem pushOutcome_eq_error {failure : Failure} :
    pushOutcome sent = .error failure ↔ sent = .error failure ∧ failure.isAuthFailure = false := by
  cases sent with
  | ok => simp [pushOutcome]
  | error other => grind [pushOutcome]

theorem pushOutcome_eq_authFailed {failure : Failure} :
    pushOutcome sent = .ok (.authFailed failure) ↔ sent = .error failure ∧ failure.isAuthFailure = true := by
  cases sent with
  | ok => simp [pushOutcome]
  | error other => grind [pushOutcome]

theorem pushOutcome_eq_updated : pushOutcome sent = .ok .updated ↔ sent = .ok () := by
  cases sent with
  | ok => simp [pushOutcome]
  | error other => grind [pushOutcome]

theorem pushOutcome_ne_skipped : pushOutcome sent ≠ .ok .skipped := by
  cases sent with
  | ok => simp [pushOutcome]
  | error other => grind [pushOutcome]

namespace Settles

variable {pushed : Except Failure Push} (settles : Settles settings trace pushed) {failure : Failure}

include settles

theorem eq_iff {outcome : Except Failure Push} : pushed = outcome ↔
    Unsent settings trace ∧ outcome = .ok .skipped ∨
      ∃ sent, Sent settings trace sent ∧ pushOutcome sent = outcome := by
  cases settles with
  | unsent unsent =>
      have apart (sent : Except Failure Unit) : ¬Sent settings trace sent := unsent.not_sent
      simp only [unsent, apart, true_and, false_and, exists_false, or_false]
      exact eq_comm
  | sent hasSent =>
      constructor
      · intro same
        exact .inr ⟨_, hasSent, same⟩
      · rintro (⟨unsent, -⟩ | ⟨other, also, same⟩)
        · exact absurd hasSent unsent.not_sent
        · rw [hasSent.unique also, same]

theorem eq_error : pushed = .error failure ↔
    Sent settings trace (.error failure) ∧ failure.isAuthFailure = false := by
  simp [settles.eq_iff, pushOutcome_eq_error]

theorem eq_authFailed : pushed = .ok (.authFailed failure) ↔
    Sent settings trace (.error failure) ∧ failure.isAuthFailure = true := by
  simp [settles.eq_iff, pushOutcome_eq_authFailed]

theorem eq_updated : pushed = .ok .updated ↔ Sent settings trace (.ok ()) := by
  simp [settles.eq_iff, pushOutcome_eq_updated]

theorem eq_skipped : pushed = .ok .skipped ↔ Unsent settings trace := by
  simp [settles.eq_iff, pushOutcome_ne_skipped]

end Settles

end

namespace Keeper

variable {settings : Settings} {trace pushing : Trace} {pushed : Except Failure Push}

/-- The forms of a push: it stops at the first answer that rules it out, or the products are sent. -/
inductive PushForm (settings : Settings) : Trace → Except Failure Push → Prop where
  | off (setting : settings.pushProducts = false) : PushForm settings [] (.ok .skipped)
  | unregistered : PushForm settings [⟨.registered, false⟩] (.ok .skipped)
  | noConsumer : PushForm settings [⟨.registered, true⟩, ⟨.consumer, none⟩] (.ok .skipped)
  | sent {consumer : ConsumerId} {installed : Table ProductId Product} {sending : Trace}
      {sent : Except Failure Unit} (setting : settings.pushProducts = true) (notices : List Notice)
      (sends : Sends consumer installed sending sent) :
      PushForm settings (enquiry consumer installed ++ sending ++ noted notices) (pushOutcome sent)

theorem PushesIf.form (pushes : PushesIf settings pushing pushed) : PushForm settings pushing pushed := by
  cases pushes with
  | off setting => exact .off setting
  | on setting pushes =>
      cases pushes with
      | unregistered => exact .unregistered
      | noConsumer => exact .noConsumer
      | identified pushes =>
          cases pushes with
          | updated sends => exact .sent setting _ sends
          | @rejected _ _ failure sends auth =>
              have concluded : pushOutcome (.error failure) = .ok (.authFailed failure) := if_pos auth
              rw [← concluded]
              exact .sent setting _ sends
          | @failed _ _ failure sends other =>
              have concluded : pushOutcome (.error failure) = .error failure := if_neg (by simp [other])
              rw [← concluded]
              exact .sent setting [] sends

theorem PushForm.settles (form : PushForm settings pushing pushed) (front : pushing <+: trace) :
    Settles settings trace pushed := by
  cases form with
  | off setting => exact .unsent (.off setting)
  | unregistered => exact .unsent (.unregistered front)
  | noConsumer => exact .unsent (.noConsumer front)
  | sent setting notices sends =>
      exact .sent ⟨setting, _, _, _, sends, (List.prefix_append _ _).trans front⟩

theorem PushForm.noVerdict (form : PushForm settings pushing pushed) :
    ∀ exchange ∈ pushing, exchange.request.isVerdict = false := by
  cases form with
  | off | unregistered | noConsumer => simp [Request.isVerdict]
  | sent setting notices sends => cases sends <;> simp [enquiry, noted, Request.isVerdict]

theorem PushForm.place (form : PushForm settings pushing pushed) :
    ∀ exchange ∈ pushing, exchange.request.isPush = true → settings.pushProducts = true ∧
      ∃ consumer installed sent, exchange = ⟨.push consumer installed.values, sent⟩ ∧
        enquiry consumer installed ++ [⟨.connect, .ok ()⟩, exchange] <+: pushing := by
  cases form with
  | off | unregistered | noConsumer => simp [Request.isPush]
  | @sent consumer installed _ sent setting notices sends =>
      cases sends with
      | unreachable failure => simp [enquiry, noted, Request.isPush]
      | answered =>
          intro exchange member pushes
          have same : exchange = ⟨.push consumer installed.values, sent⟩ := by
            simp only [enquiry, List.mem_append, List.mem_cons, List.not_mem_nil, or_false] at member
            rcases member with ((rfl | rfl | rfl) | rfl | rfl) | member
            · cases pushes
            · cases pushes
            · cases pushes
            · cases pushes
            · rfl
            · rw [noted_noPush notices exchange member] at pushes
              cases pushes
          subst same
          exact ⟨setting, consumer, installed, sent, rfl, List.prefix_append _ _⟩

theorem PushForm.once (form : PushForm settings pushing pushed) :
    (pushing.filter (·.request.isPush)).length ≤ 1 := by
  cases form with
  | off | unregistered | noConsumer => simp [Request.isPush]
  | sent setting notices sends =>
      rw [List.filter_append, filter_eq_nil_of_noPush (noted_noPush notices), List.append_nil]
      cases sends <;> simp [enquiry, Request.isPush]

theorem PushForm.sends (form : PushForm settings pushing pushed) (setting : settings.pushProducts = true)
    {consumer : ConsumerId} {installed : Table ProductId Product} {loading : Trace}
    (front : enquiry consumer installed ++ [⟨.connect, .ok ()⟩] <+: pushing ++ loading) :
    ∃ exchange ∈ pushing, exchange.request.isPush = true := by
  obtain ⟨_, same⟩ := front
  cases form with
  | off other => simp [setting] at other
  | unregistered => cases same
  | noConsumer => cases same
  | @sent known listed _ sent _ notices sends =>
      cases sends with
      | unreachable failure => cases same
      | answered =>
          refine ⟨⟨.push known listed.values, sent⟩, List.mem_append_left _ ?_, rfl⟩
          exact List.mem_append_right _ (List.mem_cons_of_mem _ List.mem_cons_self)

end Keeper

theorem Monitor.Loads.noPush {m : Monitor} {trace : Trace} {progress : Progress Monitor}
    (loads : m.Loads trace progress) : ∀ exchange ∈ trace, exchange.request.isPush = false := by
  intro exchange member
  obtain ⟨consumer, front⟩ := loads.ordered.requests
  cases contact : exchange.request.isContact with
  | false => cases request : exchange.request <;> simp_all [Request.isContact, Request.isPush]
  | true =>
      have among : exchange ∈ contacts trace := List.mem_filter.mpr ⟨member, contact⟩
      have listed := front.subset (List.mem_map_of_mem among)
      simp only [List.mem_cons, List.not_mem_nil, or_false] at listed
      rcases listed with same | same | same
      · rw [same]
        rfl
      · rw [same, statusRequest]
        split <;> rfl
      · rw [same]
        rfl

namespace Keeper

structure SendsFirst (settings : Settings) (trace : Trace) : Prop where
  /-- That is done exactly if the settings have it, there is an identity and a connection. -/
  sends_iff : (∃ exchange ∈ trace, exchange.request.isPush = true) ↔
    settings.pushProducts = true ∧ ∃ consumer installed,
      enquiry consumer installed ++ [⟨.connect, .ok ()⟩] <+: trace
  /-- Those that were just found installed are sent, in the order of their keys. -/
  carries : ∀ exchange ∈ trace, exchange.request.isPush = true →
    ∃ consumer installed sent, exchange = ⟨.push consumer (installed.entries.map (·.2)), sent⟩ ∧
      installed.entries.Pairwise (fun first later => Named.name first.1 < Named.name later.1) ∧
      enquiry consumer installed ++ [⟨.connect, .ok ()⟩, exchange] <+: trace
  once : (trace.filter (·.request.isPush)).length ≤ 1
  /-- No products are sent after a verdict was asked for. -/
  precedes : ∀ before status after, trace = before ++ status :: after → status.request.isVerdict = true →
    ∀ exchange ∈ after, exchange.request.isPush = false

variable {settings : Settings} {pushing loading trace : Trace} {pushed : Except Failure Push}

theorem PushForm.sendsFirst (form : PushForm settings pushing pushed)
    (quiet : ∀ exchange ∈ loading, exchange.request.isPush = false) :
    SendsFirst settings (pushing ++ loading) := by
  have inPush : ∀ exchange ∈ pushing ++ loading, exchange.request.isPush = true → exchange ∈ pushing := by
    intro exchange member isPush
    rcases List.mem_append.mp member with member | member
    · exact member
    · rw [quiet exchange member] at isPush
      cases isPush
  constructor
  · constructor
    · rintro ⟨exchange, member, isPush⟩
      have early := inPush exchange member isPush
      obtain ⟨setting, consumer, installed, sent, -, front⟩ := form.place exchange early isPush
      have shorter : enquiry consumer installed ++ [⟨.connect, .ok ()⟩] <+:
          enquiry consumer installed ++ [⟨.connect, .ok ()⟩, exchange] := ⟨[exchange], rfl⟩
      exact ⟨setting, consumer, installed, (shorter.trans front).trans (List.prefix_append _ _)⟩
    · rintro ⟨setting, consumer, installed, front⟩
      obtain ⟨exchange, member, isPush⟩ := form.sends setting front
      exact ⟨exchange, List.mem_append_left _ member, isPush⟩
  · intro exchange member isPush
    have early := inPush exchange member isPush
    obtain ⟨-, consumer, installed, sent, same, front⟩ := form.place exchange early isPush
    exact ⟨consumer, installed, sent, same, installed.sorted, front.trans (List.prefix_append _ _)⟩
  · rw [List.filter_append, filter_eq_nil_of_noPush quiet, List.append_nil]
    exact form.once
  · intro before status after split isVerdict exchange member
    have apart : status ∉ pushing := by
      intro inside
      rw [form.noVerdict status inside] at isVerdict
      cases isVerdict
    exact quiet exchange (mem_of_split apart split exchange member)

/-- What is known of a start from its exchanges. -/
structure Opening (settings : Settings) (source : VerdictSource) (given : List (Source × String))
    (nesting : Nat) (trace : Trace) (outcome : Except Failure (Progress Keeper)) : Prop where
  /-- It fails exactly if the connection or the sending of the products failed, for another reason than
  that the identity was rejected. -/
  fails_iff : ∀ failure, outcome = .error failure ↔
    Sent settings trace (.error failure) ∧ failure.isAuthFailure = false
  /-- Then no verdict was asked for. -/
  unasked : ∀ failure, outcome = .error failure →
    ∀ exchange ∈ trace, exchange.request.isVerdict = false
  sendsFirst : SendsFirst settings trace
  /-- The outcome that is kept of the push is what came of it. -/
  lastPush : ∀ progress, outcome = .ok progress →
    (progress.state.lastPush = .updated ↔ Sent settings trace (.ok ())) ∧
    (∀ failure, progress.state.lastPush = .authFailed failure ↔
      Sent settings trace (.error failure) ∧ failure.isAuthFailure = true) ∧
    (progress.state.lastPush = .skipped ↔ Unsent settings trace)
  /-- After the push comes the first load of a plain monitor. -/
  loads : ∀ progress, outcome = .ok progress → ∃ pushing loading inner, trace = pushing ++ loading ∧
    (∀ exchange ∈ pushing, exchange.request.isVerdict = false) ∧
    (Monitor.start settings source).Yields loading inner ∧
    progress = inner.map fun monitor =>
      { monitor, watchers := .ofList given, nesting, lastPush := progress.state.lastPush }

variable {source : VerdictSource} {given : List (Source × String)} {nesting : Nat}

theorem opening_of_yields {outcome : Except Failure (Progress Keeper)}
    (started : (start settings source (.ofList given) nesting).Yields trace outcome) :
    Opening settings source given nesting trace outcome := by
  cases starts_of_yields started with
  | @failed _ failure pushes =>
      have form := pushes.form
      have settles := form.settles (List.prefix_refl trace)
      have sendsFirst := form.sendsFirst (List.forall_mem_nil _)
      rw [List.append_nil] at sendsFirst
      have failed (progress : Progress Keeper) : Except.error failure ≠ .ok progress := by simp
      refine ⟨?_, fun _ _ => form.noVerdict, sendsFirst, fun _ same => absurd same (failed _),
        fun _ same => absurd same (failed _)⟩
      intro other
      rw [← settles.eq_error, Except.error.injEq, Except.error.injEq]
  | @loaded pushing loading lastPush inner pushes loaded =>
      have form := pushes.form
      have settles := form.settles (List.prefix_append pushing loading)
      have kept (progress : Progress Keeper) (same : Except.ok (inner.map fun monitor =>
          { monitor, watchers := .ofList given, nesting, lastPush }) = (.ok progress : Except Failure _)) :
          progress.state.lastPush = lastPush := by
        cases same
        rw [Progress.state_map]
      refine ⟨?_, nofun, form.sendsFirst (Monitor.yields_load.mp loaded).noPush, ?_, ?_⟩
      · intro failure
        rw [← settles.eq_error]
        simp
      · intro progress same
        rw [kept progress same, ← settles.eq_updated, ← settles.eq_skipped]
        refine ⟨by simp, fun failure => ?_, by simp⟩
        rw [← settles.eq_authFailed, Except.ok.injEq]
      · intro progress same
        refine ⟨pushing, loading, inner, rfl, form.noVerdict, loaded, ?_⟩
        rw [kept progress same]
        exact (Except.ok.inj same).symm

/-- Surroundings that always answer alike show a keeper what they show a plain monitor. -/
theorem monitor_of_outcome {answers : (r : Request) → r.Answer} {watchers : Watchers}
    {progress : Progress Keeper}
    (started : (start settings source watchers nesting).outcome answers = .ok progress) :
    progress.map (·.monitor) = (Monitor.start settings source).outcome answers := by
  have begins {lastPush : Push} (begun : (Monitor.start settings source >>= fun progress =>
      pure (.ok (progress.map fun monitor => { monitor, watchers, nesting, lastPush })) :
        Dialogue (Except Failure (Progress Keeper))).outcome answers = .ok progress) :
      progress.map (·.monitor) = (Monitor.start settings source).outcome answers := by
    rw [Dialogue.outcome_bind] at begun
    cases begun
    cases (Monitor.start settings source).outcome answers <;> rfl
  unfold start at started
  split at started
  · rw [Dialogue.outcome_bind] at started
    cases pushed : pushProducts.outcome answers with
    | error failure =>
        rw [pushed] at started
        cases started
    | ok lastPush =>
        rw [pushed] at started
        exact begins started
  · exact begins started

/-- How a keeper starts, whatever it is asked to follow and whatever is answered. -/
theorem start_opens (settings : Settings) (source : VerdictSource) (given : List (Source × String))
    (nesting : Nat) :
    (∀ trace outcome, (start settings source (.ofList given) nesting).Yields trace outcome →
      Opening settings source given nesting trace outcome) ∧
    ∀ answers progress, (start settings source (.ofList given) nesting).outcome answers = .ok progress →
      progress.map (·.monitor) = (Monitor.start settings source).outcome answers :=
  ⟨fun _ _ => opening_of_yields, fun _ _ => monitor_of_outcome⟩

def rejectedWorld : Scenario.World := { coveredWorld with pushError := some .forbidden }

def rejectedStart : Trace :=
  (start {} .authority (.ofList watched) 1).record Scenario.World.answer rejectedWorld

def rejectedKeeper : Keeper :=
  { watchedKeeper with observers := {}, lastPush := .authFailed .forbidden }

theorem start_opens_rejected :
    Opening {} .authority watched 1 rejectedStart (.ok (.finished rejectedKeeper)) ∧
      Sent {} rejectedStart (.error .forbidden) ∧
      (∃ exchange ∈ rejectedStart, exchange.request.isPush = true) ∧
      ∃ exchange ∈ rejectedStart, exchange.request.isVerdict = true := by
  have started : ((start {} .authority (.ofList watched) 1).run Scenario.World.answer rejectedWorld).1 =
      .ok (.finished rejectedKeeper) := rfl
  have yields := Program.yields_record Scenario.World.answer (start {} .authority (.ofList watched) 1)
    rejectedWorld
  rw [started] at yields
  have opening := (start_opens {} .authority watched 1).1 _ _ yields
  obtain ⟨-, authFailed, -⟩ := opening.lastPush _ rfl
  have sent := ((authFailed .forbidden).mp rfl).1
  have pushed : enquiry ⟨1⟩ coveredWorld.installed ++ [⟨.connect, .ok ()⟩] <+: rejectedStart := ⟨_, rfl⟩
  have sends := opening.sendsFirst.sends_iff.mpr ⟨rfl, _, _, pushed⟩
  have asked : rejectedStart.any (·.request.isVerdict) = true := rfl
  exact ⟨opening, sent, sends, List.any_eq_true.mp asked⟩

end Keeper

end Coverage
