import Coverage.Proofs.Answers
import Coverage.Proofs.Classification
import Coverage.Scenario.World
/-!
Loads that only the clock tells apart. Windows are compared with the clock at their two ends alone, so an
assessment stays the same until the clock reaches an end of some certificate, and loading again before
that changes nothing.
-/

namespace Coverage

theorem Instant.lt_iff_of_uncrossed {t u boundary : Instant} (order : t ≤ u)
    (uncrossed : ¬(t < boundary ∧ boundary ≤ u)) : u < boundary ↔ t < boundary := by
  simp only [le_iff_not_lt, lt_iff] at *
  omega

namespace Window

/-- Neither end comes after the first clock up to the second. -/
def Uncrossed (w : Window) (t u : Instant) : Prop :=
  ¬(t < w.opens ∧ w.opens ≤ u) ∧ ¬(t < w.closes ∧ w.closes ≤ u)

instance (w : Window) (t u : Instant) : Decidable (w.Uncrossed t u) := inferInstanceAs (Decidable (_ ∧ _))

variable {w : Window} {t u : Instant} (order : t ≤ u) (uncrossed : w.Uncrossed t u)

include order uncrossed

theorem startsAfter_of_uncrossed : w.startsAfter u = w.startsAfter t := by
  simp only [startsAfter, Instant.lt_iff_of_uncrossed order uncrossed.1]

theorem endedBefore_of_uncrossed : w.endedBefore u = w.endedBefore t := by
  simp only [endedBefore, Instant.le_iff_not_lt, Instant.lt_iff_of_uncrossed order uncrossed.2]

theorem contains_of_uncrossed : w.contains u = w.contains t := by
  simp only [contains, Instant.le_iff_not_lt, Instant.lt_iff_of_uncrossed order uncrossed.1,
    Instant.lt_iff_of_uncrossed order uncrossed.2]

end Window

namespace Assessment

variable {v : Verdict} {c : Circumstances} {later : Instant} (order : c.now ≤ later)
  (uncrossed : ∀ certificate ∈ c.certificates, certificate.window.Uncrossed c.now later)

include order uncrossed

theorem futureListing_of_uncrossed (p : ProductId) :
    futureListing { c with now := later } p = futureListing c p := by
  apply List.filter_congr
  intro certificate listed
  have member : certificate ∈ c.certificates := (mem_listing.mp listed).1
  exact Window.startsAfter_of_uncrossed order (uncrossed certificate member)

theorem endedListing_of_uncrossed (p : ProductId) :
    endedListing { c with now := later } p = endedListing c p := by
  apply List.filter_congr
  intro certificate listed
  have member : certificate ∈ c.certificates := (mem_listing.mp listed).1
  have starts := Window.startsAfter_of_uncrossed order (uncrossed certificate member)
  have ends := Window.endedBefore_of_uncrossed order (uncrossed certificate member)
  rw [starts, ends]

theorem inForce_of_uncrossed :
    c.certificates.filter (·.window.contains later) = c.certificates.filter (·.window.contains c.now) := by
  apply List.filter_congr
  intro certificate member
  exact Window.contains_of_uncrossed order (uncrossed certificate member)

/-- The clock counts only by the ends of windows that it passes. -/
theorem assess?_of_uncrossed : assess? v { c with now := later } = assess? v c := by
  have future := futureListing_of_uncrossed order uncrossed
  have ended := endedListing_of_uncrossed order uncrossed
  have futures : futureProducts v { c with now := later } = futureProducts v c := by
    simp only [futureProducts, future]
  have expireds : expiredProducts v { c with now := later } = expiredProducts v c := by
    simp only [expiredProducts, future, ended]
  have unentitleds : unentitledProducts v { c with now := later } = unentitledProducts v c := by
    simp only [unentitledProducts, futures, expireds]
    rfl
  simp only [assess?, futures, expireds, unentitleds, inForce_of_uncrossed order uncrossed]

end Assessment

def certificatesOf (answers : (r : Request) → r.Answer) : List Certificate := answers .certificates

/-- The same answers at all times, but for the clock. -/
def atClock (answers : (r : Request) → r.Answer) (now : Instant) : (r : Request) → r.Answer
  | .now => now
  | r => answers r

namespace Monitor

variable {answers : (r : Request) → r.Answer} {m loaded : Monitor} {now later : Instant}

theorem conclude_eq_finished {finding : Finding} (concluded : m.conclude finding = .finished loaded) :
    ∃ view, finding.revise m.view = some view ∧ loaded = { m with view } := by
  unfold conclude at concluded
  cases revised : finding.revise m.view with
  | none =>
      rw [revised] at concluded
      cases concluded
  | some view =>
      rw [revised] at concluded
      cases concluded
      exact ⟨view, rfl, rfl⟩

theorem revise_again {finding : Finding} {before view : Assessment}
    (first : finding.revise before = some view) : finding.revise view = some view := by
  cases finding with
  | noIdentity => exact first
  | noVerdict => rfl
  | judged v c => exact first

theorem circumstances_atClock (answers : (r : Request) → r.Answer) (consumer : ConsumerId)
    (now later : Instant) :
    circumstances (atClock answers later) consumer =
      { circumstances (atClock answers now) consumer with now := later } :=
  rfl

section

variable (order : now ≤ later)
  (uncrossed : ∀ certificate ∈ certificatesOf answers, certificate.window.Uncrossed now later)

include order uncrossed

theorem conclude_findingFor (m : Monitor) (settings : Settings) (source : VerdictSource)
    (consumer : ConsumerId) :
    m.conclude (findingFor (atClock answers later) settings source consumer) =
      m.conclude (findingFor (atClock answers now) settings source consumer) := by
  have connection : (atClock answers later .connect : Except Failure Unit) = atClock answers now .connect :=
    rfl
  have verdict : answered (atClock answers later) settings consumer source =
      answered (atClock answers now) settings consumer source := by
    cases source <;> rfl
  unfold findingFor
  rw [connection, verdict]
  cases (atClock answers now .connect : Except Failure Unit) with
  | error failure => rfl
  | ok _ =>
      cases answered (atClock answers now) settings consumer source with
      | none => rfl
      | some v =>
          let c := circumstances (atClock answers now) consumer
          have same : Assessment.assess? v { c with now := later } = Assessment.assess? v c :=
            Assessment.assess?_of_uncrossed order uncrossed
          simp only [conclude_judged]
          rw [circumstances_atClock answers consumer now later, same]

theorem conclude_finding (m : Monitor) (settings : Settings) (source : VerdictSource) :
    m.conclude (finding (atClock answers later) settings source) =
      m.conclude (finding (atClock answers now) settings source) := by
  have registered : (atClock answers later .registered : Bool) = atClock answers now .registered := rfl
  have consumer : (atClock answers later .consumer : Option ConsumerId) = atClock answers now .consumer :=
    rfl
  unfold finding
  rw [registered, consumer]
  cases (atClock answers now .registered : Bool) with
  | false => rfl
  | true =>
      cases (atClock answers now .consumer : Option ConsumerId) with
      | none => rfl
      | some consumer => exact conclude_findingFor order uncrossed m settings source consumer

/-- A load leaves a monitor as a first load left it, while the clock passes no end of a certificate. -/
theorem outcome_load_again (first : m.load.outcome (atClock answers now) = .finished loaded) :
    loaded.load.outcome (atClock answers later) = .finished loaded := by
  rw [outcome_load] at first
  obtain ⟨view, revised, same⟩ := conclude_eq_finished first
  have again := revise_again revised
  subst same
  rw [outcome_load, conclude_finding order uncrossed]
  unfold conclude
  simp only [again]
  rfl

end

def reloads (answers : (r : Request) → r.Answer) : List Instant → Monitor → Progress Monitor
  | [], m => .finished m
  | now :: clocks, m =>
    match m.load.outcome (atClock answers now) with
    | .finished m => reloads answers clocks m
    | .stopped m => .stopped m

theorem reloads_eq_finished {clocks : List Instant}
    (first : m.load.outcome (atClock answers now) = .finished loaded)
    (quiet : ∀ later ∈ clocks, now ≤ later ∧
      ∀ certificate ∈ certificatesOf answers, certificate.window.Uncrossed now later) :
    loaded.reloads answers clocks = .finished loaded := by
  induction clocks with
  | nil => rfl
  | cons later clocks ih =>
      obtain ⟨order, uncrossed⟩ := quiet later (by simp)
      have again := outcome_load_again order uncrossed first
      have rest := ih fun next member => quiet next (List.mem_cons_of_mem later member)
      unfold reloads
      rw [again]
      exact rest

end Monitor

/-- As long as the clock reaches no end of a certificate, an assessment stays what it is, and so does a
monitor that has loaded, however often it loads again and gets the same answers. -/
theorem reload_stable :
    (∀ (v : Verdict) (c : Circumstances) (later : Instant), c.now ≤ later →
      (∀ certificate ∈ c.certificates, certificate.window.Uncrossed c.now later) →
      Assessment.assess? v { c with now := later } = Assessment.assess? v c) ∧
    ∀ (answers : (r : Request) → r.Answer) (m loaded : Monitor) (now : Instant) (clocks : List Instant),
      m.load.outcome (atClock answers now) = .finished loaded →
      (∀ later ∈ clocks, now ≤ later ∧
        ∀ certificate ∈ certificatesOf answers, certificate.window.Uncrossed now later) →
      loaded.reloads answers clocks = .finished loaded := by
  constructor
  · intro v c later order uncrossed
    exact Assessment.assess?_of_uncrossed order uncrossed
  · intro answers m loaded now clocks first quiet
    exact Monitor.reloads_eq_finished first quiet

def settledWorld : Scenario.World where
  now := Assessment.midnight 200
  installed := .ofList ([⟨"gap"⟩, ⟨"late"⟩, ⟨"over"⟩].map fun p => (p, .ofId p))
  certificates := Assessment.mixedCircumstances.certificates ++
    [.make 3 ⟨Assessment.midnight 100, Assessment.midnight 400⟩ [⟨"gap"⟩]]
  consumer := some ⟨1⟩
  verdict := .ok (some Assessment.mixedVerdict)

def settledAnswers (r : Request) : r.Answer := (Scenario.World.answer r settledWorld).1

theorem reload_stable_settled :
    Assessment.assess? Assessment.mixedVerdict
        { Assessment.mixedCircumstances with now := Assessment.midnight 250 } =
      Assessment.assess? Assessment.mixedVerdict Assessment.mixedCircumstances ∧
    ∃ loaded, ({ settings := {}, source := .authority } : Monitor).load.outcome
        (atClock settledAnswers (Assessment.midnight 200)) = .finished loaded ∧
      loaded.view.standing ⟨"late"⟩ = .future ∧
      loaded.reloads settledAnswers [Assessment.midnight 250, Assessment.midnight 299] =
        .finished loaded := by
  obtain ⟨assessments, loads⟩ := reload_stable
  have quiet : ∀ later ∈ [Assessment.midnight 250, Assessment.midnight 299],
      Assessment.midnight 200 ≤ later ∧ ∀ certificate ∈ certificatesOf settledAnswers,
        certificate.window.Uncrossed (Assessment.midnight 200) later := by
    decide +kernel
  refine ⟨assessments _ _ _ (by decide +kernel) (by decide +kernel), _, rfl, by decide +kernel, ?_⟩
  exact loads settledAnswers { settings := {}, source := .authority } _ _ _ rfl quiet

end Coverage
