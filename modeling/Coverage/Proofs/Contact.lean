import Coverage.Proofs.Upkeep
/-!
When the authority is contacted, and for whom. Contacts occur in loads and pushes alone, and there only
after the registration and the consumer were found; they carry that consumer. A load makes at most three,
in one order. Without an identity nobody is contacted, and every standing that is told is unknown.
-/

namespace Coverage

open Scenario (Subject)

def Request.isContact : Request → Bool
  | .connect | .verdict _ _ | .storedVerdict _ _ | .contentAccess _ | .push _ _ => true
  | _ => false

def contacts (trace : Trace) : Trace := trace.filter (·.request.isContact)

/-- Whoever is contacted at all is contacted after the registration and the consumer were found, and then
for that consumer. -/
inductive Attested : Trace → Prop where
  | silent {trace : Trace} (none : contacts trace = []) : Attested trace
  | identified {before after : Trace} {consumer : ConsumerId} (none : contacts before = [])
      (same : ∀ exchange ∈ after, exchange.request.IsFor consumer) :
      Attested (before ++ ⟨.registered, true⟩ :: ⟨.consumer, some consumer⟩ :: after)

def verdictOf : Exchange Request Request.Answer → Option Verdict
  | ⟨.verdict _ _, answer⟩ =>
    match answer with
    | .ok verdict => verdict
    | .error _ => none
  | ⟨.storedVerdict _ _, verdict⟩ => verdict
  | _ => none

def Monitor.statusRequest (m : Monitor) (consumer : ConsumerId) : Request :=
  match m.source with
  | .authority => .verdict consumer m.settings.onDate
  | .store => .storedVerdict consumer m.settings.onDate

/-- The contacts of a load: the connection, the verdict as of the date that is set, and the content access
mode, which is asked for only if there is a verdict. -/
structure Monitor.Ordered (m : Monitor) (trace : Trace) : Prop where
  requests : ∃ consumer, (contacts trace).map (·.request) <+:
    [.connect, m.statusRequest consumer, .contentAccess consumer]
  informed : ∀ access ∈ contacts trace, ∀ consumer, access.request = .contentAccess consumer →
    ∃ status ∈ contacts trace, (verdictOf status).isSome

/-- One load, one push, or an exchange that contacts nobody. -/
inductive Part (fixed : Settings × VerdictSource) : Trace → Prop where
  | load {m : Monitor} {trace : Trace} {progress : Progress Monitor} (same : m.fixed = fixed)
      (loaded : m.load.Yields trace progress) : Part fixed trace
  | push {trace : Trace} {outcome : Except Failure Push} (pushed : pushProducts.Yields trace outcome) :
      Part fixed trace
  | other {exchange : Exchange Request Request.Answer} (apart : exchange.request.isContact = false) :
      Part fixed [exchange]

def Parts (fixed : Settings × VerdictSource) (trace : Trace) : Prop :=
  ∃ parts : List Trace, parts.flatten = trace ∧ ∀ part ∈ parts, Part fixed part

theorem contacts_append (first later : Trace) :
    contacts (first ++ later) = contacts first ++ contacts later :=
  List.filter_append first later

theorem contacts_connect (answer : Except Failure Unit) (later : Trace) :
    contacts (⟨.connect, answer⟩ :: later) = ⟨.connect, answer⟩ :: contacts later :=
  rfl

theorem contacts_noted (notices : List Notice) : contacts (noted notices) = [] := by
  simp [contacts, noted, Request.isContact]

namespace Monitor

variable {m : Monitor} {consumer : ConsumerId} {trace : Trace} {progress : Progress Monitor}

theorem Loads.attested (loads : m.Loads trace progress) : Attested trace := by
  cases loads with
  | unregistered installed => exact .silent rfl
  | noConsumer installed => exact .silent rfl
  | @identified installed consumer rest _ loads =>
      have before : contacts [⟨.installed, installed⟩] = [] := rfl
      exact .identified before loads.isFor

theorem statusRequest_ne (m : Monitor) (consumer other : ConsumerId) :
    m.statusRequest consumer ≠ .contentAccess other := by
  unfold statusRequest
  split <;> simp

theorem Fetches.contact {verdict : Option Verdict} (fetches : m.Fetches consumer trace verdict) :
    ∃ status, contacts trace = [status] ∧ status.request = m.statusRequest consumer ∧
      verdictOf status = verdict := by
  cases fetches with
  | stored origin => exact ⟨_, rfl, by rw [statusRequest, origin], rfl⟩
  | asked origin => exact ⟨_, rfl, by rw [statusRequest, origin], rfl⟩
  | failed origin failure => exact ⟨_, rfl, by rw [statusRequest, origin], rfl⟩

theorem Accesses.contact {contentAccess : Bool} (accesses : Accesses consumer trace contentAccess) :
    ∃ access, contacts trace = [access] ∧ access.request = .contentAccess consumer := by
  cases accesses with
  | told => exact ⟨_, rfl, rfl⟩
  | failed failure => exact ⟨_, rfl, rfl⟩

theorem ordered_of_silent (none : contacts trace = []) : m.Ordered trace := by
  constructor
  · rw [none]
    exact ⟨⟨0⟩, List.nil_prefix⟩
  · simp [none]

theorem LoadsFor.ordered (loads : m.LoadsFor consumer trace progress) : m.Ordered trace := by
  cases loads with
  | unreachable failure =>
      have listed : contacts (⟨.connect, .error failure⟩ :: noted [.noConnection failure]) =
        [⟨.connect, .error failure⟩] := rfl
      constructor
      · exact ⟨consumer, [m.statusRequest consumer, .contentAccess consumer], rfl⟩
      · simp [listed]
  | @noVerdict asking fetched =>
      obtain ⟨status, contact, request, -⟩ := fetched.contact
      have listed : contacts (⟨.connect, .ok ()⟩ :: asking ++ noted [.noVerdict consumer]) =
          [⟨.connect, .ok ()⟩, status] := by
        rw [contacts_append, contacts_noted, contacts_connect, contact, List.append_nil]
      constructor
      · rw [listed]
        exact ⟨consumer, [.contentAccess consumer], by simp [request]⟩
      · rw [listed]
        simp [request, statusRequest_ne]
  | @judged asking accessing verdict contentAccess certificates now find notices _ fetched accessed
      judged =>
      obtain ⟨status, contact, request, told⟩ := fetched.contact
      obtain ⟨access, accessContact, accessRequest⟩ := accessed.contact
      have atHome : contacts (⟨.certificates, certificates⟩ :: ⟨.now, now⟩ :: ⟨.find, find⟩ ::
          noted notices) = [] := contacts_noted notices
      have listed : contacts (⟨.connect, .ok ()⟩ :: asking ++ accessing ++
          ⟨.certificates, certificates⟩ :: ⟨.now, now⟩ :: ⟨.find, find⟩ :: noted notices) =
          [⟨.connect, .ok ()⟩, status, access] := by
        rw [contacts_append, contacts_append, atHome, contacts_connect, contact, accessContact]
        rfl
      constructor
      · rw [listed]
        exact ⟨consumer, [], by simp [request, accessRequest]⟩
      · rw [listed]
        simp [told]

theorem Loads.ordered (loads : m.Loads trace progress) : m.Ordered trace := by
  cases loads with
  | unregistered installed => exact ordered_of_silent rfl
  | noConsumer installed => exact ordered_of_silent rfl
  | identified loads =>
      have ordered := loads.ordered
      exact ⟨ordered.requests, ordered.informed⟩

end Monitor

theorem Pushes.attested {trace : Trace} {outcome : Except Failure Push} (pushes : Pushes trace outcome) :
    Attested trace := by
  cases pushes with
  | unregistered => exact .silent rfl
  | noConsumer => exact .silent rfl
  | identified pushes =>
      have before : contacts [] = [] := rfl
      exact .identified before pushes.isFor

variable {fixed : Settings × VerdictSource} {trace : Trace}

theorem Part.attested (part : Part fixed trace) : Attested trace := by
  cases part with
  | load same loaded => exact (Monitor.yields_load.mp loaded).attested
  | push pushed => exact (yields_pushProducts.mp pushed).attested
  | other apart => exact .silent (by simp [contacts, apart])

theorem Parts.nil : Parts fixed [] := ⟨[], rfl, by simp⟩

theorem Part.parts (part : Part fixed trace) : Parts fixed trace := ⟨[trace], by simp, by simpa using part⟩

theorem Parts.append {later : Trace} (first : Parts fixed trace) (rest : Parts fixed later) :
    Parts fixed (trace ++ later) := by
  obtain ⟨parts, same, each⟩ := first
  obtain ⟨parts', same', each'⟩ := rest
  refine ⟨parts ++ parts', ?_, List.forall_mem_append.mpr ⟨each, each'⟩⟩
  rw [List.flatten_append, same, same']

theorem parts_of_apart (apart : ∀ exchange ∈ trace, exchange.request.isContact = false) :
    Parts fixed trace := by
  induction trace with
  | nil => exact .nil
  | cons exchange later ih =>
      have ⟨here, rest⟩ := List.forall_mem_cons.mp apart
      exact (Part.other here).parts.append (ih rest)

theorem noted_parts (notices : List Notice) : Parts fixed (noted notices) := by
  apply parts_of_apart
  simp [noted, Request.isContact]

theorem Request.isContact_of_telling {r : Request} (telling : r.OfTelling) : r.isContact = false := by
  cases r <;> simp_all [Request.OfTelling, Request.isContact]

namespace Keeper

variable {k k' : Keeper} {progress : Progress Keeper}

theorem PushesIf.parts {settings : Settings} {outcome : Except Failure Push}
    (pushes : PushesIf settings trace outcome) : Parts fixed trace := by
  cases pushes with
  | off setting => exact .nil
  | on setting pushes => exact (Part.push (yields_pushProducts.mpr pushes)).parts

theorem PushesAgain.parts {outcome : Except Failure Push} (pushes : k.PushesAgain trace k' outcome) :
    Parts fixed trace := by
  cases pushes with
  | done pushes => exact pushes.parts
  | failed pushes => exact pushes.parts

theorem Starts.parts {settings : Settings} {source : VerdictSource} {watchers : Watchers}
    {nesting : Nat} {outcome : Except Failure (Progress Keeper)}
    (starts : Starts settings source watchers nesting trace outcome) : Parts (settings, source) trace := by
  cases starts with
  | failed pushes => exact pushes.parts
  | loaded pushes loaded => exact pushes.parts.append (Part.load rfl loaded).parts

theorem Refreshes.parts {source : Source} (refreshes : k.Refreshes source trace k') :
    Parts fixed trace := by
  cases refreshes with
  | products pushed =>
      have asked : Parts fixed [⟨.refreshProducts, ()⟩] := (Part.other rfl).parts
      exact (asked.append pushed.parts).append (noted_parts _)
  | entitlements => exact (Part.other rfl).parts
  | consumer => exact parts_of_apart (by simp [Request.isContact])

theorem Loads.parts (loads : k.Loads trace progress) : Parts k.monitor.fixed trace := by
  cases loads with
  | within loads => exact (Part.load rfl (Monitor.yields_load.mpr loads)).parts

theorem Handles.parts {source : Source} (handles : k.Handles source trace progress) :
    Parts k.monitor.fixed trace := by
  cases handles with
  | @loaded k' refreshing loading _ refreshed loaded =>
      have note : Parts k.monitor.fixed [⟨.note (.sourceChanged source), ()⟩] := (Part.other rfl).parts
      have settled : k'.monitor.fixed = k.monitor.fixed := congrArg Prod.fst refreshed.fixed
      have load := loaded.parts
      rw [settled] at load
      exact (note.append refreshed.parts).append load

theorem HandlesAll.parts {sources : List Source} (handles : k.HandlesAll sources trace progress) :
    Parts k.monitor.fixed trace := by
  induction handles with
  | nil k => exact .nil
  | stopped handled => exact handled.parts
  | @cons k k' source rest first later progress handled others ih =>
      have settled : k'.monitor.fixed = k.monitor.fixed := congrArg Prod.fst handled.fixed
      rw [settled] at ih
      exact handled.parts.append ih

theorem Tells.parts {before : Progress Keeper} (tells : Tells before trace progress) :
    Parts fixed trace :=
  parts_of_apart fun exchange member => Request.isContact_of_telling (tells.telling exchange member)

theorem Checks.parts (checks : k.Checks trace progress) : Parts k.monitor.fixed trace := by
  have polling (answers : Source → Bool) :
      Parts k.monitor.fixed (polls k.watchers answers Source.all) := by
    apply parts_of_apart
    intro exchange member
    have ⟨watcher, polled⟩ := polls_only Source.all exchange member
    rw [polled]
    rfl
  cases checks with
  | unchanged => exact polling _
  | @changed answers _ _ _ _ some handled told =>
      exact ((polling answers).append handled.parts).append told.parts

theorem parts_onChange (changed : k.onChange.Yields trace progress) : Parts k.monitor.fixed trace := by
  have ⟨loading, before, telling, same, loaded, tells⟩ := yields_onChange.mp changed
  rw [same]
  exact loaded.parts.append tells.parts

end Keeper

theorem Quiet.parts {s s' : Subject} (quiet : Quiet s trace s') : Parts fixed trace := by
  cases quiet with
  | @query s query _ _ asked =>
      have asks : (query.ask s.monitorOf).Keeps (·.isContact = false) := by
        apply query.keeps_ask
        · rfl
        · rfl
      exact parts_of_apart (asks.exchanges asked)
  | hasEntitlements asked =>
      have asks : Keeper.hasEntitlements.Keeps (·.isContact = false) := .ask rfl fun _ => .done _
      exact parts_of_apart (asks.exchanges asked)
  | push pushed => exact (Keeper.yields_push.mp pushed).parts
  | notify told => exact (Keeper.Tells.told told (Keeper.notifies_of_yields told)).parts
  | addCallback cb => exact .nil
  | removeCallback cb => exact .nil

theorem Step.parts {s : Subject} {progress : Progress Subject} (step : Step s trace progress) :
    Parts s.monitorOf.fixed trace := by
  cases step with
  | quiet quiet => exact quiet.parts
  | loadMonitor loaded => exact (Part.load rfl loaded).parts
  | load loaded => exact (Keeper.yields_load.mp loaded).parts
  | onChange changed => exact Keeper.parts_onChange changed
  | handleChange handled => exact (Keeper.yields_handleChange.mp handled).parts
  | forceCheck checked => exact (Keeper.yields_forceCheck.mp checked).parts

theorem Step.monitor_fixed {s : Subject} {progress : Progress Subject} (step : Step s trace progress) :
    progress.state.monitorOf.fixed = s.monitorOf.fixed := by
  have ofSubject (s : Subject) : s.monitorOf.fixed = s.fixed.elim id Prod.fst := by
    cases s <;> rfl
  rw [ofSubject, ofSubject, step.fixed]

theorem Run.parts {progress : Progress Subject} (run : Run trace progress) :
    Parts progress.state.monitorOf.fixed trace := by
  induction run with
  | @monitor settings source _ _ started =>
      have fixed := (Monitor.yields_load.mp started).fixed
      rw [Progress.state_map]
      exact (Part.load fixed.symm started).parts
  | keeper started =>
      rw [Progress.state_map]
      show Parts (Keeper.fixed _).1 _
      rw [Keeper.fixed_start started]
      exact (Keeper.starts_of_yields started).parts
  | step run next ih =>
      rw [next.monitor_fixed]
      exact ih.append next.parts

/-- What a query tells on a machine that is not registered, if it looks up the registration. -/
def Query.unregistered : (query : Query) → Option query.Answer
  | .standing _ => some Standing.unknown
  | .status => some SystemStatus.unknown
  | .isValid => some false
  | _ => none

end Coverage
