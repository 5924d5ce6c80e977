import Coverage.Proofs.Course.Monitor
/-!
What the loads of a trace have found, read off its exchanges alone. A load lists what is installed and
then asks one thing after the other, each only if the answers before allow it; where it ends tells
whether it found no identity, no verdict, or a verdict with the circumstances that it is joined with.
-/

namespace Coverage

/-- What a load has found. -/
inductive Finding where
  /-- There is no registered identity. -/
  | noIdentity
  /-- The authority cannot be reached or gives no verdict. -/
  | noVerdict
  | judged (verdict : Verdict) (circumstances : Circumstances)

/-- The assessment after a load; none if the date of the lapse cannot be computed. -/
def Finding.revise (view : Assessment) : Finding → Option Assessment
  | .noIdentity => some {}
  | .noVerdict => some view
  | .judged verdict circumstances => Assessment.assess? verdict circumstances

inductive Stage where
  | idle
  | listed (installed : Table ProductId Product)
  | enrolled (installed : Table ProductId Product)
  | identified (installed : Table ProductId Product)
  | connected (installed : Table ProductId Product)
  | judged (installed : Table ProductId Product) (verdict : Verdict)
  | accessed (installed : Table ProductId Product) (verdict : Verdict) (contentAccess : Bool)
  | certified (installed : Table ProductId Product) (verdict : Verdict) (contentAccess : Bool)
    (certificates : List Certificate)
  | timed (installed : Table ProductId Product) (verdict : Verdict) (contentAccess : Bool)
    (certificates : List Certificate) (now : Instant)

/-- The stage after a question of the load, with the finding of a load that ends there. An exchange that
does not go on with the load ends it without a finding. -/
def Stage.proceed : Stage → Exchange Request Request.Answer → Stage × Option Finding
  | .idle, _ => (.idle, none)
  | .listed installed, ⟨.registered, answer⟩ =>
    match answer with
    | true => (.enrolled installed, none)
    | false => (.idle, some .noIdentity)
  | .enrolled installed, ⟨.consumer, answer⟩ =>
    match answer with
    | some _ => (.identified installed, none)
    | none => (.idle, some .noIdentity)
  | .identified installed, ⟨.connect, answer⟩ =>
    match answer with
    | .ok _ => (.connected installed, none)
    | .error _ => (.idle, some .noVerdict)
  | .connected installed, ⟨.verdict _ _, answer⟩ =>
    match answer with
    | .ok (some verdict) => (.judged installed verdict, none)
    | .ok none | .error _ => (.idle, some .noVerdict)
  | .connected installed, ⟨.storedVerdict _ _, answer⟩ =>
    match answer with
    | some verdict => (.judged installed verdict, none)
    | none => (.idle, some .noVerdict)
  | .judged installed verdict, ⟨.contentAccess _, answer⟩ =>
    match answer with
    | .ok contentAccess => (.accessed installed verdict contentAccess, none)
    | .error _ => (.accessed installed verdict false, none)
  | .accessed installed verdict contentAccess, ⟨.certificates, certificates⟩ =>
    (.certified installed verdict contentAccess certificates, none)
  | .certified installed verdict contentAccess certificates, ⟨.now, now⟩ =>
    (.timed installed verdict contentAccess certificates now, none)
  | .timed installed verdict contentAccess certificates now, ⟨.find, find⟩ =>
    (.idle, some (.judged verdict { contentAccess, installed, find, certificates, now }))
  | _, _ => (.idle, none)

/-- A list of what is installed begins a load; what is noted in the log counts for nothing. -/
def Stage.next (stage : Stage) (exchange : Exchange Request Request.Answer) :
    Stage × Option Finding :=
  match exchange with
  | ⟨.installed, installed⟩ => (.listed installed, none)
  | ⟨.note _, _⟩ => (stage, none)
  | exchange => stage.proceed exchange

def scan (stage : Stage) : Trace → Stage × List Finding
  | [] => (stage, [])
  | exchange :: later =>
    ((scan (stage.next exchange).1 later).1,
      (stage.next exchange).2.toList ++ (scan (stage.next exchange).1 later).2)

def findings (trace : Trace) : List Finding := (scan .idle trace).2

theorem next_idle {exchange : Exchange Request Request.Answer}
    (other : exchange.request ≠ .installed) : Stage.idle.next exchange = (.idle, none) := by
  obtain ⟨request, answer⟩ := exchange
  cases request with
  | installed => exact absurd rfl other
  | _ => rfl

/-- A trace of whole loads, with other exchanges between them. -/
def Finds (trace : Trace) (found : List Finding) : Prop := scan .idle trace = (.idle, found)

theorem Finds.findings_eq {trace : Trace} {found : List Finding} (finds : Finds trace found) :
    findings trace = found :=
  congrArg Prod.snd finds

theorem scan_append (stage : Stage) (first later : Trace) :
    scan stage (first ++ later) =
      ((scan (scan stage first).1 later).1,
        (scan stage first).2 ++ (scan (scan stage first).1 later).2) := by
  induction first generalizing stage with
  | nil => rfl
  | cons exchange rest ih => simp only [List.cons_append, scan, ih, List.append_assoc]

theorem Finds.append {first later : Trace} {found found' : List Finding}
    (hf : Finds first found) (hl : Finds later found') :
    Finds (first ++ later) (found ++ found') := by
  unfold Finds at *
  rw [scan_append, hf, hl]

theorem finds_nothing {trace : Trace} (other : ∀ exchange ∈ trace, exchange.request ≠ .installed) :
    Finds trace [] := by
  induction trace with
  | nil => rfl
  | cons exchange later ih =>
      have rest : scan .idle later = (.idle, []) := ih fun e member => other e (.tail _ member)
      unfold Finds
      rw [scan, next_idle (other exchange (.head _)), rest]
      rfl

theorem scan_noted (stage : Stage) (notices : List Notice) :
    scan stage (noted notices) = (stage, []) := by
  induction notices with
  | nil => rfl
  | cons n rest ih =>
      have later : scan (stage.next ⟨.note n, ()⟩).1 (noted rest) = (stage, []) := ih
      show ((scan (stage.next ⟨.note n, ()⟩).1 (noted rest)).1,
        (scan (stage.next ⟨.note n, ()⟩).1 (noted rest)).2) = (stage, [])
      rw [later]

def Progress.view? {σ : Type} (viewOf : σ → Assessment) : Progress σ → Option Assessment
  | .finished state => some (viewOf state)
  | .stopped _ => none

/-- The trace is one of whole loads and other exchanges, and its findings lead from one assessment to
another, or to none. -/
def Derives (view : Assessment) (trace : Trace) (result : Option Assessment) : Prop :=
  ∃ found, Finds trace found ∧ found.foldlM Finding.revise view = result

theorem Finds.derives {view : Assessment} {trace : Trace} (finds : Finds trace []) :
    Derives view trace (some view) :=
  ⟨[], finds, rfl⟩

theorem Derives.append {view mid : Assessment} {result : Option Assessment} {first later : Trace}
    (hf : Derives view first (some mid)) (hl : Derives mid later result) :
    Derives view (first ++ later) result := by
  obtain ⟨found, finds, folded⟩ := hf
  obtain ⟨found', finds', folded'⟩ := hl
  refine ⟨found ++ found', finds.append finds', ?_⟩
  rw [List.foldlM_append, folded]
  exact folded'

theorem Derives.findings {view : Assessment} {trace : Trace} {result : Option Assessment}
    (derives : Derives view trace result) : (findings trace).foldlM Finding.revise view = result := by
  obtain ⟨found, finds, folded⟩ := derives
  rw [finds.findings_eq]
  exact folded

namespace Monitor

variable {m : Monitor} {consumer : ConsumerId} {trace : Trace}

theorem scan_fetches {answer : Option Verdict} (fetches : m.Fetches consumer trace answer)
    (installed : Table ProductId Product) :
    scan (.connected installed) trace =
      match answer with
      | some verdict => (.judged installed verdict, [])
      | none => (.idle, [.noVerdict]) := by
  cases fetches with
  | stored origin =>
      cases answer with
      | none => rfl
      | some verdict => rfl
  | asked origin =>
      cases answer with
      | none => rfl
      | some verdict => rfl
  | failed origin failure => rfl

theorem scan_accesses {contentAccess : Bool} (accesses : Accesses consumer trace contentAccess)
    (installed : Table ProductId Product) (verdict : Verdict) :
    scan (.judged installed verdict) trace = (.accessed installed verdict contentAccess, []) := by
  cases accesses with
  | told => rfl
  | failed failure => rfl

theorem Judges.assessed {v : Verdict} {c : Circumstances} {notices : List Notice}
    {progress : Progress Monitor} (judges : m.Judges v c notices progress) :
    Assessment.assess? v c = progress.view? (·.view) := by
  cases judges with
  | stopped assessed => exact assessed
  | finished assessed => exact assessed

theorem scan_loadsFor {progress : Progress Monitor} (loads : m.LoadsFor consumer trace progress) :
    ∃ finding, scan (.identified m.installed) trace = (.idle, [finding]) ∧
      finding.revise m.view = progress.view? (·.view) := by
  cases loads with
  | unreachable failure => exact ⟨.noVerdict, rfl, rfl⟩
  | @noVerdict asking fetched =>
      refine ⟨.noVerdict, ?_, rfl⟩
      show scan (.connected m.installed) (asking ++ noted _) = _
      rw [scan_append, scan_fetches fetched m.installed]
      rfl
  | @judged asking accessing verdict contentAccess certificates now find notices _ fetched accessed
      judged =>
      let circumstances : Circumstances :=
        { contentAccess, installed := m.installed, find, certificates, now }
      have last : scan (.accessed m.installed verdict contentAccess)
          (⟨.certificates, certificates⟩ :: ⟨.now, now⟩ :: ⟨.find, find⟩ :: noted notices) =
          (.idle, [.judged verdict circumstances]) := by
        show ((scan .idle (noted notices)).1, _ :: (scan .idle (noted notices)).2) = _
        rw [scan_noted]
      refine ⟨.judged verdict circumstances, ?_, judged.assessed⟩
      show scan (.connected m.installed) (asking ++ accessing ++ _) = _
      simp only [scan_append, scan_fetches fetched m.installed,
        scan_accesses accessed m.installed verdict, last]
      rfl

/-- Every load ends in one finding, and its assessment is what the finding makes of the one before. -/
theorem Loads.finds {progress : Progress Monitor} (loads : m.Loads trace progress) :
    ∃ finding, Finds trace [finding] ∧ finding.revise m.view = progress.view? (·.view) := by
  cases loads with
  | unregistered installed => exact ⟨.noIdentity, rfl, rfl⟩
  | noConsumer installed => exact ⟨.noIdentity, rfl, rfl⟩
  | identified loads =>
      have ⟨finding, scanned, revised⟩ := scan_loadsFor loads
      exact ⟨finding, scanned, revised⟩

theorem finds_load {progress : Progress Monitor} (loaded : m.load.Yields trace progress) :
    ∃ finding, Finds trace [finding] ∧ finding.revise m.view = progress.view? (·.view) :=
  (yields_load.mp loaded).finds

theorem Loads.derives {progress : Progress Monitor} (loads : m.Loads trace progress) :
    Derives m.view trace (progress.view? (·.view)) := by
  obtain ⟨finding, finds, revised⟩ := loads.finds
  refine ⟨[finding], finds, ?_⟩
  rw [List.foldlM_cons, revised]
  cases progress with
  | finished m => rfl
  | stopped m => rfl

end Monitor

end Coverage
