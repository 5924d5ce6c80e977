import Coverage.Proofs.Inventory
import Coverage.Proofs.Overlap
import Coverage.Proofs.Phases
/-!
Warnings from an assessment that has grown old. It keeps the certificates that were in force when it was
made, and each is asked anew whether it is expiring, which only one still in force is. So nothing warns that
a new assessment would not warn of; what is missed can only have opened in between.
-/

namespace Coverage

open Assessment (midnight)
open Scenario (Subject)

theorem Window.contains_iff {w : Window} {t : Instant} :
    w.contains t = true ↔ w.opens ≤ t ∧ t < w.closes := by
  rw [contains, Bool.and_eq_true, decide_eq_true_eq, decide_eq_true_eq]

/-- A window that an instant lies in held every earlier instant, unless it has opened since. -/
theorem Window.contains_earlier {w : Window} {t u : Instant} (order : t ≤ u)
    (unopened : ¬(t < w.opens ∧ w.opens ≤ u)) (inForce : w.contains u = true) : w.contains t = true := by
  obtain ⟨opened, before⟩ := contains_iff.mp inForce
  apply contains_iff.mpr
  constructor
  · intro early
    exact unopened ⟨early, opened⟩
  · exact Instant.lt_of_le_of_lt order before

namespace Certificate

variable {certificate : Certificate} {t : Instant}

theorem contains_of_isExpiringAt (expiring : certificate.isExpiringAt t = true) :
    certificate.window.contains t = true := by
  rw [isExpiringAt, Bool.and_eq_true, Bool.and_eq_true] at expiring
  exact expiring.1.2

theorem not_isExpiringAt_of_ended (ended : certificate.window.endedBefore t = true) :
    certificate.isExpiringAt t = false := by
  have closed : certificate.window.closes ≤ t := of_decide_eq_true ended
  rw [← Bool.not_eq_true]
  intro expiring
  have inForce := contains_of_isExpiringAt expiring
  rw [Window.not_contains_of_closed closed] at inForce
  cases inForce

end Certificate

namespace Assessment

variable {v v' : Verdict} {c c' : Circumstances} {a a' : Assessment} {t : Instant}

def warns (a : Assessment) (t : Instant) : Bool := a.inForce.any (·.isExpiringAt t)

theorem warns_iff (assessed : assess? v c = some a) :
    a.warns t = true ↔ ∃ certificate ∈ c.certificates,
      certificate.window.contains c.now = true ∧ certificate.isExpiringAt t = true := by
  obtain ⟨lapse, -, rfl⟩ := Option.map_eq_some_iff.mp assessed
  simp only [warns, List.any_eq_true, List.mem_filter, and_assoc]

theorem warns_now_iff (assessed : assess? v c = some a) :
    a.warns c.now = true ↔ ∃ certificate ∈ c.certificates, certificate.isExpiringAt c.now = true := by
  rw [warns_iff assessed]
  constructor
  · intro warning
    obtain ⟨certificate, member, -, expiring⟩ := warning
    exact ⟨certificate, member, expiring⟩
  · intro warning
    obtain ⟨certificate, member, expiring⟩ := warning
    exact ⟨certificate, member, Certificate.contains_of_isExpiringAt expiring, expiring⟩

/-- Nothing has opened after the first clock up to the second. -/
def Unopened (certificates : List Certificate) (t u : Instant) : Prop :=
  ∀ certificate ∈ certificates, ¬(t < certificate.window.opens ∧ certificate.window.opens ≤ u)

instance (certificates : List Certificate) (t u : Instant) : Decidable (Unopened certificates t u) :=
  inferInstanceAs (Decidable (∀ certificate ∈ certificates, _))

theorem warns_of_stale (assessed : assess? v c = some a) (assessed' : assess? v' c' = some a')
    (same : c'.certificates = c.certificates) (clock : c'.now = t) (warning : a.warns t = true) :
    a'.warns t = true := by
  obtain ⟨certificate, member, -, expiring⟩ := (warns_iff assessed).mp warning
  subst clock
  apply (warns_now_iff assessed').mpr
  exact ⟨certificate, same ▸ member, expiring⟩

theorem warns_eq_of_unopened (assessed : assess? v c = some a) (assessed' : assess? v' c' = some a')
    (same : c'.certificates = c.certificates) (clock : c'.now = t) (order : c.now ≤ t)
    (unopened : Unopened c.certificates c.now t) : a.warns t = a'.warns t := by
  rw [Bool.eq_iff_iff]
  constructor
  · intro warning
    exact warns_of_stale assessed assessed' same clock warning
  · intro warning
    subst clock
    obtain ⟨certificate, member, expiring⟩ := (warns_now_iff assessed').mp warning
    -- It is in force now, and has not opened in between, so it was kept.
    have kept : certificate ∈ c.certificates := same ▸ member
    have inForce := Certificate.contains_of_isExpiringAt expiring
    apply (warns_iff assessed).mpr
    exact ⟨certificate, kept, Window.contains_earlier order (unopened certificate kept) inForce, expiring⟩

/-- What has ended since counts for nothing. -/
theorem warns_eq_open (a : Assessment) (t : Instant) :
    a.warns t =
      (a.inForce.filter fun certificate => !certificate.window.endedBefore t).any (·.isExpiringAt t) := by
  rw [List.any_filter, warns]
  congr 1
  funext certificate
  cases ended : certificate.window.endedBefore t with
  | false => rfl
  | true => exact Certificate.not_isExpiringAt_of_ended ended

theorem exists_later (assessed : assess? v c = some a) (later : Instant) :
    ∃ a', assess? v { c with now := later } = some a' := by
  obtain ⟨lapse, computed, -⟩ := Option.map_eq_some_iff.mp assessed
  rw [assess?, computed]
  exact ⟨_, rfl⟩

end Assessment

theorem Monitor.assessed_of_load {m fresh : Monitor} {trace : Trace} {v : Verdict} {c : Circumstances}
    (loaded : m.load.Yields trace (.finished fresh)) (found : findings trace = [.judged v c]) :
    Assessment.assess? v c = some fresh.view := by
  obtain ⟨finding, finds, revised⟩ := Monitor.finds_load loaded
  have same : [finding] = [.judged v c] := finds.findings_eq.symm.trans found
  cases same
  exact revised

theorem Run.assessed_of_last {trace : Trace} {s : Subject} (run : Run trace (.finished s))
    {before after : List Finding} {v : Verdict} {c : Circumstances}
    (split : findings trace = before ++ .judged v c :: after)
    (without : ∀ finding ∈ after, finding = .noVerdict) :
    Assessment.assess? v c = some s.monitorOf.view := by
  have folded := run.derives.findings
  rw [split] at folded
  exact assessed_of_last_judged without folded

/-- After any run whose latest verdict was found at some time, a warning at a later time is also given by any
load at that time that finds the same store of certificates, and the two agree if no certificate has opened
in between; a certificate that has ended since counts for nothing. The same answers could have been joined
to a new assessment at any time. -/
theorem stale_warning_exact {trace : Trace} {s : Subject} (run : Run trace (.finished s))
    {before after : List Finding} {v : Verdict} {c : Circumstances}
    (split : findings trace = before ++ .judged v c :: after)
    (without : ∀ finding ∈ after, finding = .noVerdict) :
    (∀ (m fresh : Monitor) later v' c', m.load.Yields later (.finished fresh) →
        findings later = [.judged v' c'] → c'.certificates = c.certificates → c.now ≤ c'.now →
        (s.monitorOf.isWarning c'.now = true → fresh.isWarning c'.now = true) ∧
          (Assessment.Unopened c.certificates c.now c'.now →
            s.monitorOf.isWarning c'.now = fresh.isWarning c'.now)) ∧
      (∀ later, ∃ a, Assessment.assess? v { c with now := later } = some a ∧
        (s.monitorOf.isWarning later = true → a.warns later = true) ∧
        (c.now ≤ later → Assessment.Unopened c.certificates c.now later →
          s.monitorOf.isWarning later = a.warns later)) ∧
      ∀ later, s.monitorOf.isWarning later =
        (s.monitorOf.view.inForce.filter fun certificate => !certificate.window.endedBefore later).any
          (·.isExpiringAt later) := by
  have assessed := run.assessed_of_last split without
  refine ⟨?_, ?_, ?_⟩
  · intro m fresh later v' c' loaded found same order
    have assessed' := Monitor.assessed_of_load loaded found
    constructor
    · intro warning
      exact Assessment.warns_of_stale assessed assessed' same rfl warning
    · intro unopened
      exact Assessment.warns_eq_of_unopened assessed assessed' same rfl order unopened
  · intro later
    obtain ⟨a, assessed'⟩ := Assessment.exists_later assessed later
    refine ⟨a, assessed', ?_, ?_⟩
    · intro warning
      exact Assessment.warns_of_stale assessed assessed' rfl rfl warning
    · intro order unopened
      exact Assessment.warns_eq_of_unopened assessed assessed' rfl rfl order unopened
  · intro later
    exact Assessment.warns_eq_open s.monitorOf.view later

def warningWorld (day : Nat) : Scenario.World where
  now := midnight day
  certificates := [
    (Certificate.make 1 ⟨midnight 100, midnight 300⟩ []).withOrder ⟨none, none, 60⟩,
    (Certificate.make 2 ⟨midnight 100, midnight 210⟩ []).withOrder ⟨none, none, 30⟩]
  consumer := some ⟨1⟩

def warningCircumstances (day : Nat) : Circumstances where
  contentAccess := false
  installed := .empty
  find := Table.empty.get?
  certificates := (warningWorld day).certificates
  now := midnight day

def warningMonitor : Monitor :=
  ((Monitor.start {} .authority).run Scenario.World.answer (warningWorld 200)).1.state

theorem stale_warning_exact_ended :
    Run ((Monitor.start {} .authority).record Scenario.World.answer (warningWorld 200))
        (.finished (.monitor warningMonitor)) ∧
      warningMonitor.view.inForce.map (·.serial) = [1, 2] ∧
      warningMonitor.isWarning (midnight 200) = true ∧
      warningMonitor.isWarning (midnight 230) = false ∧
      ∃ fresh, warningMonitor.load.Yields
          (warningMonitor.load.record Scenario.World.answer (warningWorld 250)) (.finished fresh) ∧
        fresh.view.inForce.map (·.serial) = [1] ∧
        warningMonitor.isWarning (midnight 250) = true ∧ fresh.isWarning (midnight 250) = true := by
  have run : Run ((Monitor.start {} .authority).record Scenario.World.answer (warningWorld 200))
      (.finished (.monitor warningMonitor)) :=
    .monitor (Program.yields_record Scenario.World.answer _ (warningWorld 200))
  have split : findings ((Monitor.start {} .authority).record Scenario.World.answer (warningWorld 200)) =
      [] ++ .judged {} (warningCircumstances 200) :: [] := rfl
  have again := Program.yields_record Scenario.World.answer warningMonitor.load (warningWorld 250)
  have found : findings (warningMonitor.load.record Scenario.World.answer (warningWorld 250)) =
      [.judged {} (warningCircumstances 250)] := rfl
  have order : (warningCircumstances 200).now ≤ (warningCircumstances 250).now := by decide +kernel
  have warning : warningMonitor.isWarning (midnight 250) = true := by decide +kernel
  obtain ⟨fresher, -, -⟩ := stale_warning_exact run split (by simp)
  obtain ⟨warned, -⟩ := fresher _ _ _ _ _ again found rfl order
  exact ⟨run, by decide +kernel, by decide +kernel, by decide +kernel, _, again, by decide +kernel, warning,
    warned warning⟩

end Coverage
