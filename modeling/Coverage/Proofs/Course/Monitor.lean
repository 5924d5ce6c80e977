import Coverage.Keeper
import Coverage.Proofs.Dialogue
/-!
The courses that loads can take: each with all its exchanges and what comes of it. What is to be said of
every load is said of each course.
-/

namespace Coverage

def noted (notices : List Notice) : Trace := notices.map fun n => ⟨.note n, ()⟩

/-- What may be asked once it is known for which consumer. -/
def Request.IsFor (consumer : ConsumerId) : Request → Prop
  | .verdict other _ | .storedVerdict other _ | .contentAccess other | .push other _ =>
    other = consumer
  | .installed | .connect | .certificates | .now | .find | .note _ => True
  | _ => False

theorem noted_isFor (consumer : ConsumerId) (notices : List Notice) :
    ∀ exchange ∈ noted notices, exchange.request.IsFor consumer := by
  simp [noted, Request.IsFor]

namespace Monitor

inductive Fetches (m : Monitor) (consumer : ConsumerId) : Trace → Option Verdict → Prop where
  | stored (origin : m.source = .store) (verdict : Option Verdict) :
      Fetches m consumer [⟨.storedVerdict consumer m.settings.onDate, verdict⟩] verdict
  | asked (origin : m.source = .authority) (verdict : Option Verdict) :
      Fetches m consumer [⟨.verdict consumer m.settings.onDate, .ok verdict⟩] verdict
  | failed (origin : m.source = .authority) (failure : Failure) :
      Fetches m consumer [⟨.verdict consumer m.settings.onDate, .error failure⟩,
        ⟨.note (.verdictFailed consumer failure), ()⟩] none

inductive Accesses (consumer : ConsumerId) : Trace → Bool → Prop where
  | told (contentAccess : Bool) :
      Accesses consumer [⟨.contentAccess consumer, .ok contentAccess⟩] contentAccess
  | failed (failure : Failure) :
      Accesses consumer [⟨.contentAccess consumer, .error failure⟩,
        ⟨.note (.contentAccessFailed failure), ()⟩] false

/-- The notices of a judgement, and the monitor after it. -/
inductive Judges (m : Monitor) (v : Verdict) (c : Circumstances) :
    List Notice → Progress Monitor → Prop where
  | stopped (assessed : Assessment.assess? v c = none) : Judges m v c [] (.stopped m)
  | finished {view : Assessment} (assessed : Assessment.assess? v c = some view) :
      Judges m v c
        (Assessment.notices v c ++ [.assessed view.overview, .partialStacks view.partialStacks.keys])
        (.finished { m with view })

inductive LoadsFor (m : Monitor) (consumer : ConsumerId) : Trace → Progress Monitor → Prop where
  | unreachable (failure : Failure) :
      LoadsFor m consumer (⟨.connect, .error failure⟩ :: noted [.noConnection failure]) (.finished m)
  | noVerdict {asking : Trace} (fetched : m.Fetches consumer asking none) :
      LoadsFor m consumer (⟨.connect, .ok ()⟩ :: asking ++ noted [.noVerdict consumer]) (.finished m)
  | judged {asking accessing : Trace} {verdict : Verdict} {contentAccess : Bool}
      {certificates : List Certificate} {now : Instant} {find : ProductId → Option Product}
      {notices : List Notice} {progress : Progress Monitor}
      (fetched : m.Fetches consumer asking (some verdict))
      (accessed : Accesses consumer accessing contentAccess)
      (judged : m.Judges verdict { contentAccess, installed := m.installed, find, certificates, now }
        notices progress) :
      LoadsFor m consumer (⟨.connect, .ok ()⟩ :: asking ++ accessing ++
        ⟨.certificates, certificates⟩ :: ⟨.now, now⟩ :: ⟨.find, find⟩ :: noted notices) progress

inductive Loads (m : Monitor) : Trace → Progress Monitor → Prop where
  | unregistered (installed : Table ProductId Product) :
      Loads m (⟨.installed, installed⟩ :: ⟨.registered, false⟩ :: noted [.unregistered])
        (.finished { m with installed, view := {} })
  | noConsumer (installed : Table ProductId Product) :
      Loads m (⟨.installed, installed⟩ :: ⟨.registered, true⟩ :: ⟨.consumer, none⟩ :: noted [.noConsumer])
        (.finished { m with installed, view := {} })
  | identified {installed : Table ProductId Product} {consumer : ConsumerId} {trace : Trace}
      {progress : Progress Monitor} (loads : { m with installed }.LoadsFor consumer trace progress) :
      Loads m (⟨.installed, installed⟩ :: ⟨.registered, true⟩ :: ⟨.consumer, some consumer⟩ :: trace)
        progress

variable {m : Monitor} {consumer : ConsumerId} {trace : Trace} {progress : Progress Monitor}

theorem fetches_of_yields {verdict : Option Verdict} (fetched : (m.fetch consumer).Yields trace verdict) :
    m.Fetches consumer trace verdict := by
  unfold fetch at fetched
  cases origin : m.source with
  | store =>
      rw [origin] at fetched
      obtain ⟨answer, later, same, rest⟩ := Program.yields_ask.mp fetched
      obtain ⟨empty, final⟩ := Program.yields_done.mp rest
      subst same empty final
      exact .stored origin verdict
  | authority =>
      rw [origin] at fetched
      obtain ⟨answer, later, same, rest⟩ := Dialogue.yields_ask_bind.mp fetched
      cases answer with
      | ok answer =>
          obtain ⟨empty, final⟩ := Dialogue.yields_pure.mp rest
          subst same empty final
          exact .asked origin verdict
      | error failure =>
          obtain ⟨noted, final⟩ := Dialogue.yields_note_pure.mp rest
          subst same noted final
          exact .failed origin failure

theorem accesses_of_yields {contentAccess : Bool}
    (asked : (askContentAccess consumer).Yields trace contentAccess) :
    Accesses consumer trace contentAccess := by
  obtain ⟨answer, later, same, rest⟩ := Dialogue.yields_ask_bind.mp asked
  cases answer with
  | ok answer =>
      obtain ⟨empty, final⟩ := Dialogue.yields_pure.mp rest
      subst same empty final
      exact .told contentAccess
  | error failure =>
      obtain ⟨noted, final⟩ := Dialogue.yields_note_pure.mp rest
      subst same noted final
      exact .failed failure

theorem judges_of_yields {v : Verdict} {c : Circumstances}
    (judged : (m.judge v c).Yields trace progress) :
    ∃ notices, trace = noted notices ∧ m.Judges v c notices progress := by
  unfold judge at judged
  cases assessed : Assessment.assess? v c with
  | none =>
      rw [assessed] at judged
      obtain ⟨empty, final⟩ := Dialogue.yields_pure.mp judged
      subst empty final
      exact ⟨[], rfl, .stopped assessed⟩
  | some view =>
      rw [assessed] at judged
      obtain ⟨notes, _, later, same, noting, rest⟩ := Dialogue.yields_bind.mp judged
      obtain ⟨afterOverview, overview, rest⟩ := Dialogue.yields_note_bind.mp rest
      obtain ⟨incomplete, final⟩ := Dialogue.yields_note_pure.mp rest
      subst same overview incomplete final
      refine ⟨_, ?_, .finished assessed⟩
      rw [Dialogue.yields_noteAll noting]
      simp [noted]

theorem loadsFor_of_yields (loaded : (m.loadFor consumer).Yields trace progress) :
    m.LoadsFor consumer trace progress := by
  obtain ⟨connected, asking, connecting, rest⟩ := Dialogue.yields_ask_bind.mp loaded
  cases connected with
  | error failure =>
      obtain ⟨noted, final⟩ := Dialogue.yields_note_pure.mp rest
      subst connecting noted final
      exact .unreachable failure
  | ok _ =>
      obtain ⟨fetching, answer, afterFetch, fetched, asked, rest⟩ := Dialogue.yields_bind.mp rest
      have fetches := fetches_of_yields asked
      cases answer with
      | none =>
          obtain ⟨noted, final⟩ := Dialogue.yields_note_pure.mp rest
          subst connecting fetched noted final
          exact .noVerdict fetches
      | some verdict =>
          obtain ⟨access, contentAccess, afterAccess, accessed, told, rest⟩ :=
            Dialogue.yields_bind.mp rest
          obtain ⟨certificates, afterCertificates, listed, rest⟩ := Dialogue.yields_ask_bind.mp rest
          obtain ⟨now, afterNow, timed, rest⟩ := Dialogue.yields_ask_bind.mp rest
          obtain ⟨find, judgement, looked, rest⟩ := Dialogue.yields_ask_bind.mp rest
          obtain ⟨notices, noting, judges⟩ := judges_of_yields rest
          subst connecting fetched accessed listed timed looked noting
          have course := LoadsFor.judged fetches (accesses_of_yields told) judges
          simpa using course

theorem loads_of_yields (loaded : m.load.Yields trace progress) : m.Loads trace progress := by
  obtain ⟨installed, afterInstalled, listing, listed⟩ := Dialogue.yields_ask_bind.mp loaded
  obtain ⟨registered, afterRegistered, enrolling, enrolled⟩ := Dialogue.yields_ask_bind.mp listed
  cases registered with
  | false =>
      obtain ⟨noted, final⟩ := Dialogue.yields_note_pure.mp enrolled
      subst listing enrolling noted final
      exact .unregistered installed
  | true =>
      obtain ⟨consumer, afterConsumer, identifying, identified⟩ :=
        Dialogue.yields_ask_bind.mp enrolled
      cases consumer with
      | none =>
          obtain ⟨noted, final⟩ := Dialogue.yields_note_pure.mp identified
          subst listing enrolling identifying noted final
          exact .noConsumer installed
      | some consumer =>
          subst listing enrolling identifying
          exact .identified (loadsFor_of_yields identified)

/-! Every course can be taken. -/

theorem Fetches.yields {verdict : Option Verdict} (fetches : m.Fetches consumer trace verdict) :
    (m.fetch consumer).Yields trace verdict := by
  unfold fetch
  cases fetches with
  | stored origin verdict =>
      rw [origin]
      exact .ask (.done verdict)
  | asked origin verdict =>
      rw [origin]
      exact .ask (.done verdict)
  | failed origin failure =>
      rw [origin]
      exact .ask (.ask (.done none))

theorem Accesses.yields {contentAccess : Bool} (accesses : Accesses consumer trace contentAccess) :
    (askContentAccess consumer).Yields trace contentAccess := by
  cases accesses with
  | told contentAccess => exact .ask (.done contentAccess)
  | failed failure => exact .ask (.ask (.done false))

theorem Judges.yields {v : Verdict} {c : Circumstances} {notices : List Notice}
    (judges : m.Judges v c notices progress) : (m.judge v c).Yields (noted notices) progress := by
  unfold judge
  cases judges with
  | stopped assessed =>
      rw [assessed]
      exact .done _
  | @finished view assessed =>
      have concluded : Program.Yields (do
          Dialogue.note (.assessed view.overview)
          Dialogue.note (.partialStacks view.partialStacks.keys)
          return .finished { m with view } : Dialogue (Progress Monitor))
          (noted [.assessed view.overview, .partialStacks view.partialStacks.keys])
          (.finished { m with view }) := .ask (.ask (.done _))
      rw [assessed, noted, List.map_append]
      exact Dialogue.yields_bind.mpr ⟨_, (), _, rfl, Dialogue.noteAll_yields _, concluded⟩

theorem LoadsFor.yields (loads : m.LoadsFor consumer trace progress) :
    (m.loadFor consumer).Yields trace progress := by
  cases loads with
  | unreachable failure => exact .ask (.ask (.done _))
  | noVerdict fetched =>
      refine Dialogue.yields_ask_bind.mpr ⟨.ok (), _, rfl, ?_⟩
      exact Dialogue.yields_bind.mpr ⟨_, none, _, rfl, fetched.yields, .ask (.done _)⟩
  | @judged asking accessing verdict contentAccess _ _ _ _ _ fetched accessed judged =>
      simp only [List.cons_append, List.append_assoc]
      refine Dialogue.yields_ask_bind.mpr ⟨.ok (), _, rfl, ?_⟩
      refine Dialogue.yields_bind.mpr ⟨asking, some verdict, _, rfl, fetched.yields, ?_⟩
      refine Dialogue.yields_bind.mpr ⟨accessing, contentAccess, _, rfl, accessed.yields, ?_⟩
      exact .ask (.ask (.ask judged.yields))

theorem yields_load : m.load.Yields trace progress ↔ m.Loads trace progress := by
  constructor
  · exact loads_of_yields
  · intro loads
    cases loads with
    | unregistered installed => exact .ask (.ask (.ask (.done _)))
    | noConsumer installed => exact .ask (.ask (.ask (.ask (.done _))))
    | identified loads => exact .ask (.ask (.ask loads.yields))

theorem Fetches.isFor {verdict : Option Verdict} (fetches : m.Fetches consumer trace verdict) :
    ∀ exchange ∈ trace, exchange.request.IsFor consumer := by
  cases fetches <;> simp [Request.IsFor]

theorem Accesses.isFor {contentAccess : Bool} (accesses : Accesses consumer trace contentAccess) :
    ∀ exchange ∈ trace, exchange.request.IsFor consumer := by
  cases accesses <;> simp [Request.IsFor]

theorem LoadsFor.isFor (loads : m.LoadsFor consumer trace progress) :
    ∀ exchange ∈ trace, exchange.request.IsFor consumer := by
  cases loads with
  | unreachable failure =>
      rw [List.forall_mem_cons]
      exact ⟨trivial, noted_isFor consumer _⟩
  | noVerdict fetched =>
      rw [List.cons_append, List.forall_mem_cons, List.forall_mem_append]
      exact ⟨trivial, fetched.isFor, noted_isFor consumer _⟩
  | judged fetched accessed judged =>
      simp only [List.cons_append, List.forall_mem_cons, List.forall_mem_append]
      exact ⟨trivial, ⟨fetched.isFor, accessed.isFor⟩, trivial, trivial, trivial, noted_isFor consumer _⟩

def fixed (m : Monitor) : Settings × VerdictSource := (m.settings, m.source)

theorem LoadsFor.fixed (loads : m.LoadsFor consumer trace progress) : progress.state.fixed = m.fixed := by
  cases loads with
  | unreachable failure => rfl
  | noVerdict fetched => rfl
  | judged fetched accessed judged =>
      cases judged with
      | stopped assessed => rfl
      | finished assessed => rfl

theorem Loads.fixed (loads : m.Loads trace progress) : progress.state.fixed = m.fixed := by
  cases loads with
  | unregistered installed => rfl
  | noConsumer installed => rfl
  | identified loads => exact loads.fixed

end Monitor

end Coverage
