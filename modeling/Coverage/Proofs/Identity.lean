import Coverage.Proofs.LastPush
/-!
Under which identity a check acts where the consumer has changed among other sources. The changes are
handled in a fixed order and the consumer comes last, so what else has changed is handled under the
identity as it was: the products are sent for it, and verdicts are asked for it, before it is read anew. The
products are not sent again, and the last verdict of the check is one for the identity that was found then.
-/

namespace Coverage

def Request.isUse (r : Request) : Bool := r.isPush || r.isVerdict

def Request.RereadsIdentity : Request → Prop
  | .reloadIdentity | .resetConnection => True
  | _ => False

/-- Before each use the identity has been read anew and the connection given up. -/
def RereadFirst (trace : Trace) : Prop :=
  ∀ before use after, trace = before ++ use :: after → use.request.isUse = true →
    ⟨.reloadIdentity, ()⟩ ∈ before ∧ ⟨.resetConnection, ()⟩ ∈ before

/-- Each use is one for a consumer that was found before. -/
def Founded (trace : Trace) : Prop :=
  ∀ before use after, trace = before ++ use :: after → use.request.isUse = true →
    ∃ consumer, use.request.IsFor consumer ∧ ⟨.consumer, some consumer⟩ ∈ before

/-- There is a use exactly if there is a connection. -/
def ByConnection (trace : Trace) : Prop :=
  (∃ use ∈ trace, use.request.isUse = true) ↔ ⟨.connect, .ok ()⟩ ∈ trace

def rereading : Trace :=
  [⟨.note (.sourceChanged .consumer), ()⟩, ⟨.reloadIdentity, ()⟩, ⟨.resetConnection, ()⟩]

theorem rereading_unused : ∀ exchange ∈ rereading, exchange.request.isUse = false := by
  simp [rereading, Request.isUse, Request.isPush, Request.isVerdict]

theorem forall_split_append {α : Type} {P : List α → α → Prop} {first later : List α} :
    (∀ before a after, first ++ later = before ++ a :: after → P before a) ↔
      (∀ before a after, first = before ++ a :: after → P before a) ∧
        ∀ before a after, later = before ++ a :: after → P (first ++ before) a := by
  constructor
  · intro all
    constructor
    · rintro before a after rfl
      exact all before a (after ++ later) (by simp)
    · rintro before a after rfl
      exact all (first ++ before) a after (by simp)
  · rintro ⟨inFirst, inLater⟩ before a after split
    rcases List.append_eq_append_iff.mp split with ⟨between, rfl, same⟩ | ⟨between, rfl, same⟩
    · exact inLater between a after same
    · cases between with
      | nil =>
          have atStart := inLater [] a after same.symm
          simpa using atStart
      | cons head between =>
          cases (List.cons.inj same).1
          exact inFirst before a between rfl

section

variable {trace later : Trace}

theorem Request.isContact_of_isUse {r : Request} (use : r.isUse = true) : r.isContact = true := by
  cases r <;> first | rfl | cases use

theorem isUse_of_contacts (silent : contacts trace = []) :
    ∀ exchange ∈ trace, exchange.request.isUse = false := by
  intro exchange member
  have apart := List.filter_eq_nil_iff.mp silent exchange member
  exact Bool.eq_false_iff.mpr fun use => apart (Request.isContact_of_isUse use)

theorem not_isUse_of_split {P : Prop} (unused : ∀ exchange ∈ trace, exchange.request.isUse = false)
    {before after : Trace} {use : Exchange Request Request.Answer} (split : trace = before ++ use :: after)
    (isUse : use.request.isUse = true) : P := by
  have member : use ∈ trace := split ▸ List.mem_append_right before List.mem_cons_self
  rw [unused use member] at isUse
  cases isUse

theorem founded_of_unused (unused : ∀ exchange ∈ trace, exchange.request.isUse = false) : Founded trace :=
  fun _ _ _ split isUse => not_isUse_of_split unused split isUse

theorem Founded.append (first : Founded trace) (second : Founded later) : Founded (trace ++ later) := by
  refine forall_split_append.mpr ⟨first, fun before use after split isUse => ?_⟩
  obtain ⟨consumer, isFor, found⟩ := second before use after split isUse
  exact ⟨consumer, isFor, List.mem_append_right trace found⟩

theorem Attested.founded (attested : Attested trace) : Founded trace := by
  cases attested with
  | silent none => exact founded_of_unused (isUse_of_contacts none)
  | @identified before after consumer none same =>
      have enquiry : before ++ ⟨.registered, true⟩ :: ⟨.consumer, some consumer⟩ :: after =
          (before ++ [⟨.registered, true⟩, ⟨.consumer, some consumer⟩]) ++ after := by simp
      have unused : ∀ exchange ∈ before ++ [⟨.registered, true⟩, ⟨.consumer, some consumer⟩],
          exchange.request.isUse = false :=
        List.forall_mem_append.mpr ⟨isUse_of_contacts none, by simp [Request.isUse, Request.isPush,
          Request.isVerdict]⟩
      rw [enquiry]
      refine forall_split_append.mpr ⟨founded_of_unused unused, ?_⟩
      rintro front use rest rfl -
      refine ⟨consumer, same use (List.mem_append_right front List.mem_cons_self), ?_⟩
      simp

theorem ByConnection.append (first : ByConnection trace) (second : ByConnection later) :
    ByConnection (trace ++ later) := by
  unfold ByConnection at *
  rw [List.mem_append, ← first, ← second]
  simp only [List.mem_append, or_and_right, exists_or]

theorem byConnection_of_use {use : Exchange Request Request.Answer} (member : use ∈ trace)
    (isUse : use.request.isUse = true) (connected : ⟨.connect, .ok ()⟩ ∈ trace) : ByConnection trace :=
  iff_of_true ⟨use, member, isUse⟩ connected

theorem byConnection_of_silent (silent : contacts trace = []) : ByConnection trace := by
  refine iff_of_false ?_ fun connected => List.filter_eq_nil_iff.mp silent _ connected rfl
  rintro ⟨use, member, isUse⟩
  rw [isUse_of_contacts silent use member] at isUse
  cases isUse

theorem byConnection_of_unreachable (failure : Failure) :
    ByConnection [⟨.connect, .error failure⟩] := by
  refine iff_of_false ?_ fun connected => ?_
  · simp [Request.isUse, Request.isPush, Request.isVerdict]
  · cases List.mem_singleton.mp connected

theorem byConnection_noted (notices : List Notice) : ByConnection (noted notices) :=
  byConnection_of_silent (contacts_noted notices)

theorem Monitor.statusRequest_isUse (m : Monitor) (consumer : ConsumerId) :
    (m.statusRequest consumer).isUse = true := by
  unfold Monitor.statusRequest
  split <;> rfl

theorem Monitor.Fetches.exists_use {m : Monitor} {consumer : ConsumerId} {verdict : Option Verdict}
    (fetches : m.Fetches consumer trace verdict) : ∃ use ∈ trace, use.request.isUse = true := by
  obtain ⟨status, contact, request, -⟩ := fetches.contact
  have member : status ∈ contacts trace := contact ▸ List.mem_cons_self
  exact ⟨status, (List.mem_filter.mp member).1, request ▸ m.statusRequest_isUse consumer⟩

theorem Monitor.LoadsFor.byConnection {m : Monitor} {consumer : ConsumerId} {progress : Progress Monitor}
    (loads : m.LoadsFor consumer trace progress) : ByConnection trace := by
  cases loads with
  | unreachable failure => exact (byConnection_of_unreachable failure).append (byConnection_noted _)
  | noVerdict fetched =>
      obtain ⟨use, member, isUse⟩ := fetched.exists_use
      exact byConnection_of_use (by simp [member]) isUse (by simp)
  | judged fetched accessed judged =>
      obtain ⟨use, member, isUse⟩ := fetched.exists_use
      exact byConnection_of_use (by simp [member]) isUse (by simp)

theorem Monitor.Loads.byConnection {m : Monitor} {progress : Progress Monitor}
    (loads : m.Loads trace progress) : ByConnection trace := by
  cases loads with
  | unregistered installed => exact byConnection_of_silent rfl
  | noConsumer installed => exact byConnection_of_silent rfl
  | @identified installed consumer rest _ loads =>
      have before : ByConnection [⟨.installed, installed⟩, ⟨.registered, true⟩,
          ⟨.consumer, some consumer⟩] := byConnection_of_silent rfl
      exact before.append loads.byConnection

theorem Sends.byConnection {consumer : ConsumerId} {installed : Table ProductId Product}
    {sent : Except Failure Unit} (sends : Sends consumer installed trace sent) : ByConnection trace := by
  cases sends with
  | unreachable failure => exact byConnection_of_unreachable failure
  | answered =>
      exact byConnection_of_use (List.mem_cons_of_mem _ List.mem_cons_self) rfl List.mem_cons_self

theorem Keeper.PushForm.byConnection {settings : Settings} {pushed : Except Failure Push}
    (form : PushForm settings trace pushed) : ByConnection trace := by
  cases form with
  | off | unregistered | noConsumer => exact byConnection_of_silent rfl
  | @sent consumer installed _ _ _ notices sends =>
      have before : ByConnection (enquiry consumer installed) := byConnection_of_silent rfl
      exact (before.append sends.byConnection).append (byConnection_noted notices)

theorem Part.byConnection {fixed : Settings × VerdictSource} (part : Part fixed trace) :
    ByConnection trace := by
  cases part with
  | load same loaded => exact (Monitor.yields_load.mp loaded).byConnection
  | push pushed =>
      have pushes : Keeper.PushesIf { fixed.1 with pushProducts := true } trace _ := .on rfl (yields_pushProducts.mp pushed)
      exact pushes.form.byConnection
  | other apart => exact byConnection_of_silent (by simp [contacts, apart])

theorem Parts.byConnection {fixed : Settings × VerdictSource} (parts : Parts fixed trace) :
    ByConnection trace := by
  obtain ⟨parts, rfl, each⟩ := parts
  induction parts with
  | nil => exact byConnection_of_silent rfl
  | cons part parts ih =>
      have ⟨here, rest⟩ := List.forall_mem_cons.mp each
      exact here.byConnection.append (ih rest)

theorem Parts.founded {fixed : Settings × VerdictSource} (parts : Parts fixed trace) : Founded trace := by
  obtain ⟨parts, rfl, each⟩ := parts
  induction parts with
  | nil => exact founded_of_unused (by simp)
  | cons part parts ih =>
      have ⟨here, rest⟩ := List.forall_mem_cons.mp each
      exact here.attested.founded.append (ih rest)

end

theorem Request.OfLoad.not_rereadsIdentity {r : Request} (loading : r.OfLoad) : ¬r.RereadsIdentity := by
  cases r <;> first | exact not_false | exact loading.elim

theorem Request.OfTelling.isUse {r : Request} (telling : r.OfTelling) : r.isUse = false := by
  cases r <;> first | rfl | exact telling.elim

theorem Request.isPush_of_unused {r : Request} (unused : r.isUse = false) : r.isPush = false :=
  (Bool.or_eq_false_iff.mp unused).1

section

variable {w : Watchers} {answers other : Source → Bool} {sources : List Source}

theorem changesIn_of_polls {trace : Trace} (polled : polls w answers sources <+: trace)
    (also : polls w other sources <+: trace) : polls w other sources = polls w answers sources ∧
      changesIn w other sources = changesIn w answers sources := by
  induction sources generalizing trace with
  | nil => exact ⟨rfl, rfl⟩
  | cons source rest ih =>
      cases kept : w.get source with
      | none =>
          simp only [polls_cons_of_none kept, changesIn_cons_of_none kept] at polled also ⊢
          exact ih polled also
      | some watcher =>
          simp only [polls_cons_of_some kept, changesIn_cons_of_some kept] at polled also ⊢
          obtain ⟨later, rfl⟩ := polled
          obtain ⟨here, behind⟩ := List.cons_prefix_cons.mp also
          have same : other source = answers source := eq_of_heq (Exchange.mk.inj here).2
          obtain ⟨samePolls, sameChanges⟩ := ih (List.prefix_append _ later) behind
          rw [same, samePolls, sameChanges]
          exact ⟨rfl, rfl⟩

end

namespace Keeper

variable {k k' : Keeper} {trace : Trace} {progress : Progress Keeper}

theorem Refreshes.keepsIdentity {source : Source} (refreshes : k.Refreshes source trace k')
    (other : source ≠ .consumer) : ∀ exchange ∈ trace, ¬exchange.request.RereadsIdentity := by
  cases refreshes with
  | products pushed =>
      simp only [List.cons_append, List.forall_mem_cons, List.forall_mem_append]
      exact ⟨not_false, fun exchange member => (pushed.asks exchange member).not_rereadsIdentity,
        by simp [noted, Request.RereadsIdentity]⟩
  | entitlements => simp [Request.RereadsIdentity]
  | consumer => exact absurd rfl other

theorem Handles.keepsIdentity {source : Source} (handles : k.Handles source trace progress)
    (other : source ≠ .consumer) : ∀ exchange ∈ trace, ¬exchange.request.RereadsIdentity := by
  cases handles with
  | loaded refreshed loaded =>
      simp only [List.cons_append, List.forall_mem_cons, List.forall_mem_append]
      exact ⟨not_false, refreshed.keepsIdentity other,
        fun exchange member => (loaded.asks exchange member).not_rereadsIdentity⟩

theorem HandlesAll.keepsIdentity {sources : List Source} (handles : k.HandlesAll sources trace progress)
    (others : .consumer ∉ sources) : ∀ exchange ∈ trace, ¬exchange.request.RereadsIdentity := by
  induction handles with
  | nil k => simp
  | stopped handled => exact handled.keepsIdentity (List.ne_of_not_mem_cons others).symm
  | cons handled _ ih =>
      exact List.forall_mem_append.mpr ⟨handled.keepsIdentity (List.ne_of_not_mem_cons others).symm,
        ih (List.not_mem_of_not_mem_cons others)⟩

theorem HandlesAll.split {first later : List Source}
    (handles : k.HandlesAll (first ++ later) trace progress) :
    (k.HandlesAll first trace progress ∧ progress.isFinished = false) ∨
      ∃ (k' : Keeper) (earlier rest : Trace), trace = earlier ++ rest ∧
        k.HandlesAll first earlier (.finished k') ∧ k'.HandlesAll later rest progress := by
  induction first generalizing k trace with
  | nil => exact .inr ⟨k, [], trace, rfl, .nil k, handles⟩
  | cons source first ih =>
      cases handles with
      | stopped handled => exact .inl ⟨.stopped handled, rfl⟩
      | @cons _ mid _ _ front back _ handled others =>
          rcases ih others with ⟨stopped, short⟩ | ⟨k', earlier, rest, rfl, finished, remaining⟩
          · exact .inl ⟨.cons handled stopped, short⟩
          · exact .inr ⟨k', front ++ earlier, rest, (List.append_assoc _ _ _).symm,
              .cons handled finished, remaining⟩

theorem Handles.of_consumer (handles : k.Handles .consumer trace progress) :
    ∃ loading, trace = rereading ++ loading ∧ k.Loads loading progress := by
  cases handles with
  | loaded refreshed loaded =>
      cases refreshed
      exact ⟨_, rfl, loaded⟩

theorem HandlesAll.of_consumer (handles : k.HandlesAll [.consumer] trace progress) :
    ∃ loading, trace = rereading ++ loading ∧ k.Loads loading progress := by
  cases handles with
  | stopped handled => exact handled.of_consumer
  | cons handled others =>
      cases others
      rw [List.append_nil]
      exact handled.of_consumer

end Keeper

/-- If the identity is read anew only behind the first exchanges, there must be no use among these. -/
theorem rereadFirst_iff {front later : Trace}
    (keeps : ∀ exchange ∈ front, ¬exchange.request.RereadsIdentity)
    (reread : later = [] ∨ rereading <+: later) :
    RereadFirst (front ++ later) ↔ ∀ exchange ∈ front, exchange.request.isUse = false := by
  have unread : ⟨.reloadIdentity, ()⟩ ∉ front := fun member => keeps _ member trivial
  constructor
  · intro first exchange member
    refine Bool.eq_false_iff.mpr fun isUse => ?_
    obtain ⟨before, after, rfl⟩ := List.append_of_mem member
    obtain ⟨read, -⟩ := (forall_split_append.mp first).1 before exchange after rfl isUse
    exact unread (List.mem_append_left _ read)
  · intro unused
    refine forall_split_append.mpr ⟨fun _ _ _ split isUse => not_isUse_of_split unused split isUse, ?_⟩
    rcases reread with rfl | ⟨rest, rfl⟩
    · exact fun _ _ _ split isUse => not_isUse_of_split (List.forall_mem_nil _) split isUse
    · refine forall_split_append.mpr
        ⟨fun _ _ _ split isUse => not_isUse_of_split rereading_unused split isUse, ?_⟩
      intro before use after split isUse
      simp [rereading]

namespace Keeper

variable {k : Keeper} {answers : Source → Bool} {trace : Trace} {progress : Progress Keeper}

/-- A check in which the consumer has changed. What else has changed is handled first, and then the identity
is read anew, unless that stopped short; one load follows, and no products are sent. -/
structure TakesUp (k : Keeper) (answers : Source → Bool) (trace : Trace) (progress : Progress Keeper)
    (earlier later : Trace) : Prop where
  split : trace = polls k.watchers answers Source.all ++ earlier ++ later
  former : ∀ exchange ∈ earlier, ¬exchange.request.RereadsIdentity
  alone : changesIn k.watchers answers Source.all = [.consumer] → earlier = []
  reread : later = [] ∧ progress.isFinished = false ∨
    ∃ (k' : Keeper) (loading telling : Trace) (loaded : Progress Keeper),
      later = rereading ++ loading ++ telling ∧ k'.fixed = k.fixed ∧ k'.load.Yields loading loaded ∧
        Tells loaded telling progress
  unsent : ∀ exchange ∈ later, exchange.request.isPush = false
  founded : Founded earlier ∧ Founded later
  used : (∃ use ∈ earlier, use.request.isUse = true) ↔ ⟨.connect, .ok ()⟩ ∈ earlier

theorem Loads.noPush (loads : k.Loads trace progress) :
    ∀ exchange ∈ trace, exchange.request.isPush = false := by
  cases loads with
  | within loads => exact loads.noPush

theorem Tells.unused {before : Progress Keeper} (tells : Tells before trace progress) :
    ∀ exchange ∈ trace, exchange.request.isUse = false :=
  fun exchange member => (tells.telling exchange member).isUse

theorem polls_unused (sources : List Source) :
    ∀ exchange ∈ polls k.watchers answers sources, exchange.request.isUse = false := by
  intro exchange member
  obtain ⟨watcher, polled⟩ := polls_only sources exchange member
  rw [polled]
  rfl

theorem polls_keepsIdentity (sources : List Source) :
    ∀ exchange ∈ polls k.watchers answers sources, ¬exchange.request.RereadsIdentity := by
  intro exchange member
  obtain ⟨watcher, polled⟩ := polls_only sources exchange member
  rw [polled]
  exact not_false

theorem changesIn_all (changed : Source.consumer ∈ changesIn k.watchers answers Source.all) :
    changesIn k.watchers answers Source.all =
      changesIn k.watchers answers [.products, .entitlements] ++ [.consumer] := by
  have whole : Source.all = [.products, .entitlements] ++ [.consumer] := rfl
  have reports := (List.mem_filter.mp changed).2
  unfold changesIn
  rw [whole, List.filter_append]
  exact congrArg _ (List.filter_cons_of_pos reports)

theorem not_mem_changesIn : Source.consumer ∉ changesIn k.watchers answers [.products, .entitlements] := by
  intro member
  have among := (List.mem_filter.mp member).1
  simp at among

theorem HandlesAll.nothing_else {between : Progress Keeper}
    (handled : k.HandlesAll (changesIn k.watchers answers [.products, .entitlements]) trace between)
    (changed : Source.consumer ∈ changesIn k.watchers answers Source.all)
    (only : changesIn k.watchers answers Source.all = [.consumer]) :
    trace = [] ∧ between = .finished k := by
  rw [changesIn_all changed] at only
  rw [List.append_left_eq_self.mp only] at handled
  cases handled
  exact ⟨rfl, rfl⟩

theorem TakesUp.of_stopped {k' : Keeper} {earlier : Trace}
    (changed : Source.consumer ∈ changesIn k.watchers answers Source.all)
    (stopped : k.HandlesAll (changesIn k.watchers answers [.products, .entitlements]) earlier
      (.stopped k')) :
    k.TakesUp answers (polls k.watchers answers Source.all ++ earlier ++ []) (.stopped k') earlier [] where
  split := rfl
  former := stopped.keepsIdentity not_mem_changesIn
  alone only := (stopped.nothing_else changed only).1
  reread := .inl ⟨rfl, rfl⟩
  unsent := List.forall_mem_nil _
  founded := ⟨stopped.parts.founded, founded_of_unused (List.forall_mem_nil _)⟩
  used := stopped.parts.byConnection

theorem TakesUp.of_finished {k' : Keeper} {earlier loading telling : Trace} {loaded : Progress Keeper}
    (changed : Source.consumer ∈ changesIn k.watchers answers Source.all)
    (finished : k.HandlesAll (changesIn k.watchers answers [.products, .entitlements]) earlier
      (.finished k'))
    (loads : k'.Loads loading loaded) (told : Tells loaded telling progress) :
    k.TakesUp answers (polls k.watchers answers Source.all ++ (earlier ++ (rereading ++ loading)) ++ telling)
      progress earlier (rereading ++ loading ++ telling) where
  split := by simp
  former := finished.keepsIdentity not_mem_changesIn
  alone only := (finished.nothing_else changed only).1
  reread := .inr ⟨k', loading, telling, loaded, rfl, finished.fixed, yields_load.mpr loads, told⟩
  unsent := by
    refine List.forall_mem_append.mpr ⟨List.forall_mem_append.mpr ⟨?_, loads.noPush⟩, ?_⟩
    · exact fun exchange member => Request.isPush_of_unused (rereading_unused exchange member)
    · exact fun exchange member => Request.isPush_of_unused (told.unused exchange member)
  founded := by
    have before : Founded (rereading ++ loading) :=
      (founded_of_unused rereading_unused).append loads.parts.founded
    exact ⟨finished.parts.founded, before.append (founded_of_unused told.unused)⟩
  used := finished.parts.byConnection

theorem takesUp_of_yields (checked : k.forceCheck.Yields trace progress)
    (polled : polls k.watchers answers Source.all <+: trace)
    (changed : Source.consumer ∈ changesIn k.watchers answers Source.all) :
    ∃ earlier later, k.TakesUp answers trace progress earlier later := by
  cases yields_forceCheck.mp checked with
  | @unchanged other none =>
      obtain ⟨-, same⟩ := changesIn_of_polls polled (List.prefix_refl _)
      rw [← same, none] at changed
      cases changed
  | @changed other handling telling between after some handled told =>
      obtain ⟨samePolls, same⟩ := changesIn_of_polls polled
        ((List.prefix_append _ handling).trans (List.prefix_append _ telling))
      rw [same, changesIn_all changed] at handled
      rw [samePolls]
      rcases handled.split with ⟨stopped, short⟩ | ⟨k', earlier, rest, rfl, finished, remaining⟩
      · cases told with
        | told told => cases short
        | stopped stop => exact ⟨handling, [], .of_stopped changed stopped⟩
      · obtain ⟨loading, rfl, loads⟩ := remaining.of_consumer
        exact ⟨earlier, rereading ++ loading ++ telling, .of_finished changed finished loads told⟩

/-- In a check in which the consumer has changed, all uses come after the identity is read anew if and only
if no connection was made while the other changes were handled; so it is, whatever the answers are, if the
consumer alone has changed. A use before that is one for a consumer found before, a use after it is one for
the consumer found since, and no products are sent after it. -/
theorem reread_exact (checked : k.forceCheck.Yields trace progress)
    (polled : polls k.watchers answers Source.all <+: trace)
    (changed : Source.consumer ∈ changesIn k.watchers answers Source.all) :
    ∃ earlier later, k.TakesUp answers trace progress earlier later ∧
      (RereadFirst trace ↔ ⟨.connect, .ok ()⟩ ∉ earlier) ∧
      (changesIn k.watchers answers Source.all = [.consumer] → RereadFirst trace) := by
  obtain ⟨earlier, later, takes⟩ := takesUp_of_yields checked polled changed
  have unconnected : RereadFirst trace ↔ ⟨.connect, .ok ()⟩ ∉ earlier := by
    have keeps : ∀ exchange ∈ polls k.watchers answers Source.all ++ earlier,
        ¬exchange.request.RereadsIdentity :=
      List.forall_mem_append.mpr ⟨polls_keepsIdentity Source.all, takes.former⟩
    have reread : later = [] ∨ rereading <+: later := by
      rcases takes.reread with ⟨none, -⟩ | ⟨_, loading, telling, _, same, -⟩
      · exact .inl none
      · exact .inr ⟨loading ++ telling, by rw [same, List.append_assoc]⟩
    rw [takes.split, rereadFirst_iff keeps reread, List.forall_mem_append, ← takes.used,
      and_iff_right (polls_unused Source.all)]
    simp
  refine ⟨earlier, later, takes, unconnected, fun alone => ?_⟩
  rw [unconnected, takes.alone alone]
  exact List.not_mem_nil

def movedWorld : Scenario.World :=
  { watchedWorld with
    pending :=
      { installed := some (.ofList [(⟨"added"⟩, .ofId ⟨"added"⟩)])
        consumer := some (some ⟨2⟩) } }

def movedTrace : Trace := startedKeeper.forceCheck.record Scenario.World.answer movedWorld

def movedProgress : Progress Keeper := (startedKeeper.forceCheck.run Scenario.World.answer movedWorld).1

theorem movedTrace_yields : startedKeeper.forceCheck.Yields movedTrace movedProgress :=
  Program.yields_record Scenario.World.answer _ movedWorld

theorem polls_moved : polls startedKeeper.watchers (fun _ => true) Source.all <+: movedTrace :=
  ⟨_, rfl⟩

theorem consumer_moved :
    Source.consumer ∈ changesIn startedKeeper.watchers (fun _ => true) Source.all := by
  decide

def sentFor (trace : Trace) : List ConsumerId :=
  trace.filterMap fun exchange =>
    match exchange.request with
    | .push consumer _ => some consumer
    | _ => none

def judgedFor (trace : Trace) : List ConsumerId :=
  trace.filterMap fun exchange =>
    match exchange.request with
    | .verdict consumer _ | .storedVerdict consumer _ => some consumer
    | _ => none

theorem not_rereadFirst_moved : ¬RereadFirst movedTrace := by
  intro first
  have split : movedTrace = movedTrace.take 8 ++ ⟨_, _⟩ :: movedTrace.drop 9 := rfl
  have read := (first _ _ _ split rfl).1
  have asked : Request.reloadIdentity ∈ (movedTrace.take 8).map (·.request) := List.mem_map_of_mem read
  have listed : (movedTrace.take 8).map (·.request) = [.poll "last", .poll "identity",
      .note (.sourceChanged .products), .refreshProducts, .registered, .consumer, .installed, .connect] := rfl
  simp [listed] at asked

theorem reread_exact_moved :
    startedKeeper.forceCheck.Yields movedTrace movedProgress ∧
      polls startedKeeper.watchers (fun _ => true) Source.all <+: movedTrace ∧
      Source.consumer ∈ changesIn startedKeeper.watchers (fun _ => true) Source.all ∧
      ∃ earlier later, startedKeeper.TakesUp (fun _ => true) movedTrace movedProgress earlier later ∧
        ⟨.connect, .ok ()⟩ ∈ earlier := by
  obtain ⟨earlier, later, takes, unconnected, -⟩ :=
    reread_exact movedTrace_yields polls_moved consumer_moved
  have connected := not_not.mp (mt unconnected.mpr not_rereadFirst_moved)
  exact ⟨movedTrace_yields, polls_moved, consumer_moved, earlier, later, takes, connected⟩

/-- The products are sent for the consumer that the machine no longer is, and for no other, and then a
verdict is asked for the one it has become. -/
theorem sent_for_former :
    Run takenTrace (.finished (.keeper startedKeeper)) ∧
      startedKeeper.forceCheck.Yields movedTrace movedProgress ∧
      polls startedKeeper.watchers (fun _ => true) Source.all <+: movedTrace ∧
      Source.consumer ∈ changesIn startedKeeper.watchers (fun _ => true) Source.all ∧
      ¬RereadFirst movedTrace ∧ sentFor movedTrace = [⟨1⟩] ∧ judgedFor movedTrace = [⟨1⟩, ⟨2⟩] :=
  ⟨.keeper takenTrace_yields, movedTrace_yields, polls_moved, consumer_moved, not_rereadFirst_moved,
    rfl, rfl⟩

end Keeper

end Coverage
