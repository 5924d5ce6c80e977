import Coverage.Proofs.Finding
import Coverage.Scenario.World
/-!
When a load stops short. The date of a lapse is one second back and one day on from the deadline, so it
leaves the range of instants only from the first second of the range or from its last day; no other
verdict stops a load.
-/

namespace Coverage

namespace Instant

variable {t u : Instant} {seconds : Int}

/-- Whole seconds since 1970 where a move by whole seconds arrives, be it an instant or not. -/
def arrival (t : Instant) (seconds : Int) : Int :=
  t.day * 86400 + (t.departure seconds).1 + seconds

theorem nano_departure_lt (moves : seconds ≠ 0) : (t.departure seconds).2 < 1000000000 := by
  have bound := t.nano_lt
  unfold departure isLeap
  by_cases leap : 1000000000 ≤ t.nano
  · have direction : 0 < seconds ∨ seconds < 0 := by omega
    rcases direction with forward | backward
    · simp [leap, forward]
      omega
    · have notForward : ¬0 < seconds := by omega
      simp [leap, backward, notForward]
      omega
  · simp [leap]
    omega

theorem make?_eq_none_iff {day : Int} {second nano : Nat} (second_lt : second < 86400)
    (nano_lt : nano < 1000000000) :
    make? day second nano = none ↔ day < firstDay ∨ lastDay < day := by
  unfold make?
  split
  · rename_i fits
    have inside : ¬(day < firstDay ∨ lastDay < day) := by omega
    simp [inside]
  · rename_i outside
    have leaves : day < firstDay ∨ lastDay < day := by omega
    simp [leaves]

theorem shift?_eq_none_iff (moves : seconds ≠ 0) :
    t.shift? seconds = none ↔
      t.arrival seconds / 86400 < firstDay ∨ lastDay < t.arrival seconds / 86400 := by
  have second_lt : (t.arrival seconds % 86400).toNat < 86400 := by omega
  exact make?_eq_none_iff second_lt (nano_departure_lt moves)

theorem unixSeconds_of_shift? (moves : seconds ≠ 0) (shifted : t.shift? seconds = some u) :
    u.unixSeconds = t.arrival seconds ∧ u.isLeap = false := by
  have made : make? (t.arrival seconds / 86400) (t.arrival seconds % 86400).toNat
      (t.departure seconds).2 = some u := shifted
  have small := nano_departure_lt (t := t) moves
  unfold make? at made
  split at made
  · cases made
    constructor
    · unfold unixSeconds
      simp only
      omega
    · simp [isLeap, small]
  · cases made

theorem arrival_back : t.arrival (-1) = t.unixSeconds - if t.isLeap then 0 else 1 := by
  unfold arrival departure unixSeconds
  cases t.isLeap with
  | true =>
      simp
      omega
  | false =>
      simp
      omega

theorem arrival_of_not_leap (regular : t.isLeap = false) :
    t.arrival seconds = t.unixSeconds + seconds := by
  unfold arrival departure unixSeconds
  simp [regular]

/-- The first second of the range of instants, and its last day but for the first second. A leap second
counts as the second after it. -/
def IsExtreme (t : Instant) : Prop :=
  t.day = firstDay ∧ t.second = 0 ∧ t.isLeap = false ∨ t.day = lastDay ∧ (0 < t.second ∨ t.isLeap = true)

theorem back_eq_none_iff :
    t.shift? (-1) = none ↔ t.day = firstDay ∧ t.second = 0 ∧ t.isLeap = false := by
  rw [shift?_eq_none_iff (by decide), arrival_back]
  have first := t.firstDay_le
  have last := t.le_lastDay
  have second := t.second_lt
  unfold unixSeconds
  cases t.isLeap with
  | true =>
      simp only [if_true, Bool.true_eq_false, and_false, iff_false]
      omega
  | false =>
      simp only [Bool.false_eq_true, if_false, and_true]
      omega

theorem forth_eq_none_iff (back : t.shift? (-1) = some u) :
    u.shift? 86400 = none ↔ t.day = lastDay ∧ (0 < t.second ∨ t.isLeap = true) := by
  obtain ⟨moved, regular⟩ := unixSeconds_of_shift? (by decide) back
  rw [shift?_eq_none_iff (by decide), arrival_of_not_leap regular, moved, arrival_back]
  have first := t.firstDay_le
  have last := t.le_lastDay
  have second := t.second_lt
  have order : firstDay + 1 < lastDay := by decide
  unfold unixSeconds
  cases t.isLeap with
  | true =>
      simp only [if_true, or_true, and_true]
      omega
  | false =>
      simp only [Bool.false_eq_true, if_false, or_false]
      omega

theorem lapse?_eq_none_iff : t.lapse? = none ↔ t.IsExtreme := by
  unfold lapse? IsExtreme
  cases back : t.shift? (-1) with
  | none =>
      have first := back_eq_none_iff.mp back
      simp [first]
  | some u =>
      have notFirst : ¬(t.day = firstDay ∧ t.second = 0 ∧ t.isLeap = false) := by
        intro first
        rw [back_eq_none_iff.mpr first] at back
        cases back
      rw [Option.bind_some, forth_eq_none_iff back]
      simp [notFirst]

end Instant

def Verdict.HasExtremeDeadline (v : Verdict) : Prop :=
  ∃ raw deadline, v.compliantUntil = some raw ∧ Deadline.read raw = .ok (.named deadline) ∧
    deadline.IsExtreme

/-- A deadline whose year is too large stands for an instant well inside the range. -/
theorem Deadline.latest_not_extreme : ¬Deadline.latest.IsExtreme := by
  intro extreme
  rcases extreme with first | last
  · exact absurd first.1 (by decide)
  · exact absurd last.1 (by decide)

theorem Verdict.lapse?_eq_none_iff {v : Verdict} : v.lapse? = none ↔ v.HasExtremeDeadline := by
  unfold lapse? deadline HasExtremeDeadline
  cases given : v.compliantUntil with
  | none => simp
  | some raw =>
      cases read : Deadline.read raw with
      | error fault => simp [read, Except.map]
      | ok deadline =>
          cases deadline with
          | named instant =>
              have lapses := Instant.lapse?_eq_none_iff (t := instant)
              simp [read, Except.map, Deadline.instant, lapses]
          | clamped text =>
              have lapses := Instant.lapse?_eq_none_iff (t := Deadline.latest)
              simp [read, Except.map, Deadline.instant, lapses, Deadline.latest_not_extreme]

theorem Assessment.assess?_eq_none_iff {v : Verdict} {c : Circumstances} :
    assess? v c = none ↔ v.HasExtremeDeadline := by
  rw [assess?, Option.map_eq_none_iff, Verdict.lapse?_eq_none_iff]

theorem Assessment.lapse_of_assess? {v : Verdict} {c : Circumstances} {a : Assessment} {fault : Fault}
    (assessed : assess? v c = some a) (unreadable : v.deadline = .error fault) : a.lapse = none := by
  unfold assess? Verdict.lapse? at assessed
  rw [unreadable] at assessed
  cases assessed
  rfl

def Finding.Stops : Finding → Prop
  | .judged verdict _ => verdict.HasExtremeDeadline
  | .noIdentity | .noVerdict => False

theorem Finding.revise_eq_none_iff {finding : Finding} {view : Assessment} :
    finding.revise view = none ↔ finding.Stops := by
  cases finding with
  | judged verdict circumstances => exact Assessment.assess?_eq_none_iff
  | noIdentity => simp [revise, Stops]
  | noVerdict => simp [revise, Stops]

/-- In any surroundings a load stops short exactly if the deadline of the verdict that it found is
extreme; else it completes with the assessment that its finding makes, and an unreadable deadline is
dropped. -/
theorem load_stops_iff {σ : Type} (handle : (r : Request) → σ → r.Answer × σ) (m : Monitor) (s : σ) :
    ∃ finding, findings (m.load.record handle s) = [finding] ∧
      ((m.load.run handle s).1.isFinished = false ↔ finding.Stops) ∧
      ∀ loaded, (m.load.run handle s).1 = .finished loaded →
        finding.revise m.view = some loaded.view ∧
        ∀ verdict circumstances fault, finding = .judged verdict circumstances →
          verdict.deadline = .error fault → loaded.view.lapse = none := by
  obtain ⟨finding, finds, revised⟩ := Monitor.finds_load (Program.yields_record handle m.load s)
  refine ⟨finding, finds.findings_eq, ?_, ?_⟩
  · rw [← Finding.revise_eq_none_iff, revised]
    cases (m.load.run handle s).1 with
    | finished loaded => simp [Progress.isFinished, Progress.view?]
    | stopped loaded => simp [Progress.isFinished, Progress.view?]
  · intro loaded finished
    rw [finished] at revised
    refine ⟨revised, ?_⟩
    intro verdict circumstances fault same unreadable
    subst same
    exact Assessment.lapse_of_assess? revised unreadable

def lastSecondWorld : Scenario.World where
  now := Deadline.latest
  consumer := some ⟨1⟩
  verdict := .ok (some { compliantUntil := some "+262142-12-31T23:59:59+0000" })

/-- Not every load completes. -/
theorem load_stops_at_last_second :
    lastSecondWorld.registered = true ∧
      ((Monitor.start {} .authority).run Scenario.World.answer lastSecondWorld).1.isFinished = false := by
  decide +kernel

end Coverage
