import Coverage.Proofs.Finding
/-!
What a load comes to where every question has one answer. The answers tell what the load finds, and the
finding tells what becomes of the monitor.
-/

namespace Coverage.Monitor

section

variable (answers : (r : Request) → r.Answer)

/-- The verdict that a load is given; a failure of the authority is none. -/
def answered (settings : Settings) (consumer : ConsumerId) : VerdictSource → Option Verdict
  | .store => answers (.storedVerdict consumer settings.onDate)
  | .authority =>
    match (answers (.verdict consumer settings.onDate) : Except Failure (Option Verdict)) with
    | .ok verdict => verdict
    | .error _ => none

/-- What a verdict is joined with; the content access mode is off if the authority does not say. -/
def circumstances (consumer : ConsumerId) : Circumstances where
  contentAccess :=
    match (answers (.contentAccess consumer) : Except Failure Bool) with
    | .ok contentAccess => contentAccess
    | .error _ => false
  installed := answers .installed
  find := answers .find
  certificates := answers .certificates
  now := answers .now

def findingFor (settings : Settings) (source : VerdictSource) (consumer : ConsumerId) : Finding :=
  match (answers .connect : Except Failure Unit), answered answers settings consumer source with
  | .ok (), some verdict => .judged verdict (circumstances answers consumer)
  | _, _ => .noVerdict

/-- What a load finds, whatever was installed and assessed before. -/
def finding (settings : Settings) (source : VerdictSource) : Finding :=
  match (answers .registered : Bool), (answers .consumer : Option ConsumerId) with
  | true, some consumer => findingFor answers settings source consumer
  | _, _ => .noIdentity

def conclude (m : Monitor) (finding : Finding) : Progress Monitor :=
  match finding.revise m.view with
  | none => .stopped m
  | some view => .finished { m with view }

theorem conclude_judged (m : Monitor) (v : Verdict) (c : Circumstances) :
    m.conclude (.judged v c) =
      match Assessment.assess? v c with
      | none => .stopped m
      | some view => .finished { m with view } :=
  rfl

theorem outcome_judge (m : Monitor) (v : Verdict) (c : Circumstances) :
    (m.judge v c).outcome answers = m.conclude (.judged v c) := by
  rw [conclude_judged]
  unfold judge
  cases Assessment.assess? v c with
  | none => rfl
  | some view =>
      simp only [Dialogue.outcome_bind]
      rfl

theorem outcome_fetch (m : Monitor) (consumer : ConsumerId) :
    (m.fetch consumer).outcome answers = answered answers m.settings consumer m.source := by
  unfold fetch answered
  cases m.source with
  | store => rfl
  | authority =>
      simp only [Dialogue.outcome_bind, Dialogue.outcome_ask]
      cases (answers (.verdict consumer m.settings.onDate) : Except Failure (Option Verdict)) with
      | ok verdict => rfl
      | error failure => rfl

theorem outcome_askContentAccess (consumer : ConsumerId) :
    (askContentAccess consumer).outcome answers = (circumstances answers consumer).contentAccess := by
  unfold askContentAccess circumstances
  simp only [Dialogue.outcome_bind, Dialogue.outcome_ask]
  cases (answers (.contentAccess consumer) : Except Failure Bool) with
  | ok contentAccess => rfl
  | error failure => rfl

theorem outcome_loadFor (m : Monitor) (listed : m.installed = answers .installed) (consumer : ConsumerId) :
    (m.loadFor consumer).outcome answers =
      m.conclude (findingFor answers m.settings m.source consumer) := by
  unfold loadFor findingFor
  rw [Dialogue.outcome_bind, Dialogue.outcome_ask]
  cases (answers .connect : Except Failure Unit) with
  | error failure => rfl
  | ok _ =>
      simp only [Dialogue.outcome_bind, outcome_fetch]
      cases answered answers m.settings consumer m.source with
      | none => rfl
      | some verdict =>
          simp only [Dialogue.outcome_bind, outcome_askContentAccess, listed]
          exact outcome_judge answers m verdict _

theorem outcome_load (m : Monitor) : m.load.outcome answers =
    { m with installed := answers .installed }.conclude (finding answers m.settings m.source) := by
  unfold load finding
  simp only [Dialogue.outcome_bind, Dialogue.outcome_ask]
  cases (answers .registered : Bool) with
  | false => rfl
  | true =>
      simp only [Dialogue.outcome_bind, Dialogue.outcome_ask]
      cases (answers .consumer : Option ConsumerId) with
      | none => rfl
      | some consumer => exact outcome_loadFor answers { m with installed := answers .installed } rfl consumer

end

section

variable {answers : (r : Request) → r.Answer} {settings : Settings} {source : VerdictSource}

theorem finding_eq_noVerdict {consumer : ConsumerId} (registered : answers .registered = true)
    (known : answers .consumer = some consumer)
    (refused : (∃ failure, answers .connect = .error failure) ∨
      answered answers settings consumer source = none) :
    finding answers settings source = .noVerdict := by
  unfold finding findingFor
  simp only [registered, known]
  rcases refused with ⟨failure, failed⟩ | without
  · simp only [failed]
  · rw [without]
    cases (answers .connect : Except Failure Unit) <;> rfl

end

end Coverage.Monitor
