import Coverage.Proofs.Classification
/-!
The time left until a window closes, against the order of instants. Two instants are apart by their days,
seconds and nanoseconds, and by one second more if one of them is a leap second that the other has passed
in its day. From one day to the next no leap second is counted, so in one that ends a day the time left runs
ahead of the order by up to a second; everywhere else its sign tells on which side of the close an instant
is.
-/

namespace Coverage

namespace Instant

variable {t u : Instant}

/-- Nanoseconds since 1970-01-01T00:00:00Z. A leap second runs on behind the second that it is kept with, so
it lies on top of the next one. -/
def nanoseconds (t : Instant) : Int := t.unixSeconds * 1000000000 + t.nano

/-- The leap second that is counted between two instants: one that the first of them has passed in the course
of its day, or, taken back, one that the other has passed. -/
def leapSince (t u : Instant) : Int :=
  if u.second < t.second ∧ u.isLeap then 1 else if t.second < u.second ∧ t.isLeap then -1 else 0

theorem since_eq (t u : Instant) :
    t.since u = t.nanoseconds - u.nanoseconds + t.leapSince u * 1000000000 := by
  simp only [since, leapSince, nanoseconds, unixSeconds]
  omega

theorem leapSince_swap (t u : Instant) : t.leapSince u = -u.leapSince t := by
  unfold leapSince
  rcases Nat.lt_trichotomy u.second t.second with behind | same | ahead
  · cases u.isLeap <;> simp [behind, Nat.lt_asymm behind]
  · simp [same]
  · cases t.isLeap <;> simp [ahead, Nat.lt_asymm ahead]

theorem since_swap (t u : Instant) : t.since u = -u.since t := by
  rw [since_eq, since_eq, leapSince_swap]
  omega

/-- How far an instant of the first second of a day is from the start of the last second of the day before. A
leap second of its own is taken back. -/
def pastMidnight (t : Instant) : Int := t.nano + if t.isLeap then 0 else 1000000000

/-- The instant is in a leap second that ends its day, and the other one in the first second of the next day,
no further into that second than the instant is into its own. -/
def Overtakes (t u : Instant) : Prop :=
  u.day = t.day + 1 ∧ t.second = 86399 ∧ u.second = 0 ∧ u.pastMidnight ≤ t.nano

instance (t u : Instant) : Decidable (t.Overtakes u) := inferInstanceAs (Decidable (_ ∧ _))

theorem Overtakes.lt (overtakes : t.Overtakes u) : t < u := by
  have nextDay : u.day = t.day + 1 := overtakes.1
  rw [lt_iff]
  omega

theorem Overtakes.since (overtakes : t.Overtakes u) : u.since t = u.pastMidnight - t.nano := by
  obtain ⟨nextDay, last, first, -⟩ := overtakes
  simp only [Instant.since, pastMidnight, nextDay, last, first]
  cases u.isLeap <;> grind

theorem since_pos_of_same_day (same : t.day = u.day) (before : t < u) : 0 < u.since t := by
  have fields := lt_iff.mp before
  have small := t.nano_lt
  -- So a leap second between them can only add to the difference.
  have after : ¬u.second < t.second := by omega
  simp only [Instant.since, isLeap, decide_eq_true_eq, after, false_and, if_false]
  split
  · omega
  · omega

/-- A day makes up for everything but a leap second at its end. -/
theorem since_pos_of_later_day (later : t.day < u.day) (clear : ¬t.Overtakes u) : 0 < u.since t := by
  have first := t.second_lt
  have small := t.nano_lt
  have second := u.second_lt
  simp only [Overtakes, pastMidnight, isLeap, decide_eq_true_eq] at clear
  simp only [Instant.since, isLeap, decide_eq_true_eq]
  split
  · omega
  · split
    · -- The leap second that is taken back has lasted a second, which is more than the other one has left.
      next behind =>
      rw [if_pos behind.2] at clear
      omega
    · omega

theorem since_pos (before : t < u) (clear : ¬t.Overtakes u) : 0 < u.since t := by
  rcases lt_iff.mp before with later | ⟨same, -⟩
  · exact since_pos_of_later_day later clear
  · exact since_pos_of_same_day same before

theorem lt_trichotomy (t u : Instant) : t < u ∨ t = u ∨ u < t := by
  by_cases same : t.day = u.day ∧ t.second = u.second ∧ t.nano = u.nano
  · obtain ⟨day, second, nano⟩ := same
    right
    left
    cases t
    cases u
    simp_all
  · simp only [lt_iff]
    omega

theorem lt_asymm (before : t < u) : ¬u < t := by
  simp only [lt_iff] at *
  omega

theorem ne_of_lt (before : t < u) : t ≠ u := by
  rintro rfl
  exact lt_asymm before before

end Instant

namespace Window

variable {w : Window} {t : Instant}

def RemainingTells (w : Window) (t : Instant) : Prop :=
  (0 < w.remaining t ↔ t < w.closes) ∧ (w.remaining t = 0 ↔ t = w.closes) ∧
    (w.remaining t < 0 ↔ w.closes < t)

instance (w : Window) (t : Instant) : Decidable (w.RemainingTells t) :=
  inferInstanceAs (Decidable (_ ∧ _))

theorem remainingTells_of_clear (ahead : ¬t.Overtakes w.closes) (behind : ¬w.closes.Overtakes t) :
    w.RemainingTells t := by
  unfold RemainingTells remaining
  rcases Instant.lt_trichotomy t w.closes with before | same | after
  · have left : 0 < w.closes.since t := Instant.since_pos before ahead
    have apart : t ≠ w.closes := Instant.ne_of_lt before
    have notAfter : ¬w.closes < t := Instant.lt_asymm before
    simp only [before, apart, notAfter, iff_true, iff_false]
    omega
  · subst same
    have none : w.closes.since w.closes = 0 := by
      have swap := Instant.since_swap w.closes w.closes
      omega
    have still : ¬w.closes < w.closes := fun before => Instant.ne_of_lt before rfl
    simp [none, still]
  · have gone : 0 < t.since w.closes := Instant.since_pos after behind
    have swap := Instant.since_swap w.closes t
    have apart : t ≠ w.closes := (Instant.ne_of_lt after).symm
    have notBefore : ¬t < w.closes := Instant.lt_asymm after
    simp only [after, apart, notBefore, iff_true, iff_false]
    omega

theorem remaining_of_overtakes (ahead : t.Overtakes w.closes) :
    t < w.closes ∧ w.remaining t = w.closes.pastMidnight - t.nano ∧ w.remaining t ≤ 0 := by
  have early : w.remaining t = w.closes.pastMidnight - t.nano := ahead.since
  refine ⟨ahead.lt, early, ?_⟩
  have further := ahead.2.2.2
  omega

theorem remaining_of_overtaken (behind : w.closes.Overtakes t) :
    w.closes < t ∧ w.remaining t = w.closes.nano - t.pastMidnight ∧ 0 ≤ w.remaining t := by
  have gone : t.since w.closes = t.pastMidnight - w.closes.nano := behind.since
  have swap : w.remaining t = -t.since w.closes := Instant.since_swap w.closes t
  have further := behind.2.2.2
  refine ⟨behind.lt, ?_, ?_⟩
  · omega
  · omega

theorem remainingTells_iff :
    w.RemainingTells t ↔ ¬t.Overtakes w.closes ∧ ¬w.closes.Overtakes t := by
  constructor
  · intro tells
    constructor
    · intro ahead
      obtain ⟨before, -, spent⟩ := remaining_of_overtakes ahead
      have left : 0 < w.remaining t := tells.1.mpr before
      omega
    · intro behind
      obtain ⟨after, -, left⟩ := remaining_of_overtaken behind
      have gone : w.remaining t < 0 := tells.2.2.mpr after
      omega
  · intro clear
    exact remainingTells_of_clear clear.1 clear.2

theorem endedBefore_iff : w.endedBefore t = true ↔ ¬t < w.closes := by
  rw [endedBefore, decide_eq_true_iff, Instant.le_iff_not_lt]

theorem spent_iff_ended : (w.remaining t ≤ 0 ↔ w.endedBefore t = true) ↔
    ¬t.Overtakes w.closes ∧ ¬(w.closes.Overtakes t ∧ w.remaining t ≠ 0) := by
  rw [endedBefore_iff]
  by_cases ahead : t.Overtakes w.closes
  · obtain ⟨before, -, spent⟩ := remaining_of_overtakes ahead
    simp [ahead, before, spent]
  · by_cases behind : w.closes.Overtakes t
    · obtain ⟨after, -, left⟩ := remaining_of_overtaken behind
      have ended : ¬t < w.closes := Instant.lt_asymm after
      simp only [ahead, behind, ended, not_false_eq_true, iff_true, true_and, ne_eq, Decidable.not_not]
      omega
    · have tells : w.RemainingTells t := remainingTells_of_clear ahead behind
      simp only [ahead, behind, ← tells.1, Int.not_lt, false_and, not_false_eq_true, and_true]

/-- The time left is positive before the close, zero at the close and negative after it, unless one of the two
instants is in a leap second that ends a day and the other one in the first second of the next, not as far
into it. Then the time left is up to a second short before the close, and up to a second long after it; and
it is spent exactly when the window has ended, but for an instant that overtakes the close, and for a close
that overtakes the instant by some time. -/
theorem remaining_exact (w : Window) (t : Instant) :
    (w.RemainingTells t ↔ ¬t.Overtakes w.closes ∧ ¬w.closes.Overtakes t) ∧
      (t.Overtakes w.closes → t < w.closes ∧
        w.remaining t = w.closes.pastMidnight - t.nano ∧ w.remaining t ≤ 0) ∧
      (w.closes.Overtakes t → w.closes < t ∧
        w.remaining t = w.closes.nano - t.pastMidnight ∧ 0 ≤ w.remaining t) ∧
      ((w.remaining t ≤ 0 ↔ w.endedBefore t = true) ↔
        ¬t.Overtakes w.closes ∧ ¬(w.closes.Overtakes t ∧ w.remaining t ≠ 0)) := by
  refine ⟨remainingTells_iff, ?_, ?_, spent_iff_ended⟩
  · intro ahead
    exact remaining_of_overtakes ahead
  · intro behind
    exact remaining_of_overtaken behind

def leapSecond : Instant where
  day := 17166
  second := 86399
  nano := 1500000000
  firstDay_le := by decide
  le_lastDay := by decide
  second_lt := by decide
  nano_lt := by decide

def newYear : Instant := Assessment.midnight 17167

/-- Half a second before the close the time left is negative, and if the close lies in the leap second it is
positive half a second after that. -/
theorem remaining_in_leap_second :
    Instant.ofText? "2016-12-31T23:59:60.5Z" = some leapSecond ∧
      Instant.ofText? "2017-01-01T00:00:00Z" = some newYear ∧
      (∃ w, make leapSecond newYear = .ok w ∧ w.contains leapSecond = true ∧
        w.remaining leapSecond = -500000000 ∧ ¬w.RemainingTells leapSecond) ∧
      ∃ w, make leapSecond leapSecond = .ok w ∧ w.endedBefore newYear = true ∧
        w.remaining newYear = 500000000 ∧ ¬w.RemainingTells newYear := by
  refine ⟨by decide +kernel, by decide +kernel, ⟨_, rfl, ?_⟩, _, rfl, ?_⟩
  · decide +kernel
  · decide +kernel

end Window

end Coverage
