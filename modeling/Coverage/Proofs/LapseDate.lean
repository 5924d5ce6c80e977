import Coverage.Proofs.Lapse
import Coverage.Proofs.Spelling.Moment
import Coverage.Proofs.WarningPeriod
/-!
The date of a lapse on the line of nanoseconds. Outside of leap seconds it lies a day less a second after the
deadline, so the dates stand in the order of their deadlines. The way there leads one second back first, so
there is no date for a deadline in the first second of the range either, although the date would lie in it.
-/

namespace Coverage

namespace Instant

open Assessment (midnight)
open Calendar (Date)

variable {t u v w : Instant}

def first : Instant := (make? firstDay 0 0).get (by decide)

def last : Instant := (make? lastDay 86399 999999999).get (by decide)

theorem first_le (t : Instant) : first ≤ t := by
  have fields : first.day = firstDay ∧ first.second = 0 ∧ first.nano = 0 := by decide
  have day := t.firstDay_le
  rw [le_iff_not_lt, lt_iff]
  omega

/-- Only a leap second at the end of the last day comes later. -/
theorem le_last (regular : t.isLeap = false) : t ≤ last := by
  have fields : last.day = lastDay ∧ last.second = 86399 ∧ last.nano = 999999999 := by decide
  have day := t.le_lastDay
  have second := t.second_lt
  have nano := nano_lt_of_regular regular
  rw [le_iff_not_lt, lt_iff]
  omega

theorem nanoseconds_of_lapse? (regular : t.isLeap = false) (lapses : t.lapse? = some v) :
    v.isLeap = false ∧ v.nanoseconds = t.nanoseconds + 86399 * 1000000000 := by
  obtain ⟨before, back, forth⟩ := Option.bind_eq_some_iff.mp lapses
  obtain ⟨beforeRegular, behind⟩ := nanoseconds_of_shift? regular back
  obtain ⟨lapseRegular, ahead⟩ := nanoseconds_of_shift? beforeRegular forth
  refine ⟨lapseRegular, ?_⟩
  calc v.nanoseconds = before.nanoseconds + 86400 * 1000000000 := ahead
    _ = t.nanoseconds + -1 * 1000000000 + 86400 * 1000000000 := by rw [behind]
    _ = t.nanoseconds + 86399 * 1000000000 := by omega

/-- The extreme deadlines are those from which one of the two steps leads past an end of the line. -/
theorem lapse?_eq_none_iff_past (regular : t.isLeap = false) : t.lapse? = none ↔
    t.nanoseconds - 1000000000 < first.nanoseconds ∨
      last.nanoseconds < t.nanoseconds + 86399 * 1000000000 := by
  have lowest : first.nanoseconds = firstDay * 86400 * 1000000000 := by decide
  have highest : last.nanoseconds = (lastDay + 1) * 86400 * 1000000000 - 1 := by decide
  have day := t.firstDay_le
  have day' := t.le_lastDay
  have second := t.second_lt
  have nano := nano_lt_of_regular regular
  rw [lapse?_eq_none_iff, IsExtreme, regular, lowest, highest, nanoseconds, unixSeconds]
  simp only [and_true, Bool.false_eq_true, or_false]
  omega

/-- From the first second of a day the date is in its last one, from any other second it is on the next date,
one second earlier in the day. -/
theorem fields_of_lapse? (regular : t.isLeap = false) (lapses : t.lapse? = some v) :
    v.nano = t.nano ∧ (t.second = 0 → v.day = t.day ∧ v.second = 86399) ∧
      (0 < t.second → v.day = t.day + 1 ∧ v.second + 1 = t.second) := by
  obtain ⟨regular', moved⟩ := nanoseconds_of_lapse? regular lapses
  have nano := nano_lt_of_regular regular
  have nano' := nano_lt_of_regular regular'
  have second := t.second_lt
  have second' := v.second_lt
  have seconds : v.unixSeconds = t.unixSeconds + 86399 := by
    unfold nanoseconds at moved
    omega
  rw [nanoseconds, nanoseconds, seconds] at moved
  unfold unixSeconds at seconds
  refine ⟨?_, ?_, ?_⟩
  · omega
  · omega
  · omega

theorem lapse_lt_iff (regular : t.isLeap = false) (regular' : u.isLeap = false)
    (lapses : t.lapse? = some v) (lapses' : u.lapse? = some w) : t < u ↔ v < w := by
  obtain ⟨early, moved⟩ := nanoseconds_of_lapse? regular lapses
  obtain ⟨late, moved'⟩ := nanoseconds_of_lapse? regular' lapses'
  rw [lt_iff_nanoseconds regular regular', lt_iff_nanoseconds early late, moved, moved']
  omega

/-- Outside of leap seconds all instants lie from the first to the last one. The date of a lapse is missing
exactly if one second before the deadline is before the first instant or a day less a second after it is
after the last one. Otherwise it is the instant that much after the deadline, with the same fraction of a
second: in the last second of the same date if the deadline is in the first one, else on the next date, a
second earlier in the day. Of two deadlines the later one has the later date. -/
theorem lapse_shifts (t : Instant) (regular : t.isLeap = false) :
    (first ≤ t ∧ t ≤ last) ∧
      (t.lapse? = none ↔ t.nanoseconds - 1000000000 < first.nanoseconds ∨
        last.nanoseconds < t.nanoseconds + 86399 * 1000000000) ∧
      (∀ v, t.lapse? = some v → v.isLeap = false ∧
        v.nanoseconds = t.nanoseconds + 86399 * 1000000000 ∧ v.nano = t.nano ∧
        (t.second = 0 → Date.ofDay v.day = Date.ofDay t.day ∧ v.second = 86399) ∧
        (0 < t.second → Date.ofDay v.day = (Date.ofDay t.day).next ∧ v.second + 1 = t.second)) ∧
      ∀ u v w, u.isLeap = false → t.lapse? = some v → u.lapse? = some w → (t < u ↔ v < w) := by
  refine ⟨⟨first_le t, le_last regular⟩, lapse?_eq_none_iff_past regular, ?_, ?_⟩
  · intro v lapses
    obtain ⟨regular', moved⟩ := nanoseconds_of_lapse? regular lapses
    obtain ⟨nano, midnight, later⟩ := fields_of_lapse? regular lapses
    refine ⟨regular', moved, nano, ?_, ?_⟩
    · intro start
      obtain ⟨sameDay, second⟩ := midnight start
      exact ⟨by rw [sameDay], second⟩
    · intro started
      obtain ⟨nextDay, second⟩ := later started
      exact ⟨by rw [nextDay, Date.ofDay_succ], second⟩
  · intro u v w regular' lapses lapses'
    exact lapse_lt_iff regular regular' lapses lapses'

def februaryNoon : Instant := (make? 19781 43200 500000000).get (by decide)

theorem lapse_shifts_leap_day :
    ofText? "2024-02-28T00:00:00Z" = some (midnight 19781) ∧
      ofText? "2024-02-28T12:00:00.5Z" = some februaryNoon ∧
      (midnight 19781).isLeap = false ∧ februaryNoon.isLeap = false ∧
      ∃ v w, (midnight 19781).lapse? = some v ∧ februaryNoon.lapse? = some w ∧ v < w ∧
        Date.ofDay v.day = ⟨2024, 2, 28⟩ ∧ v.second = 86399 ∧
        Date.ofDay w.day = ⟨2024, 2, 29⟩ ∧ w.second + 1 = 43200 ∧ w.nano = 500000000 := by
  have early : (midnight 19781).isLeap = false := by decide +kernel
  have late : februaryNoon.isLeap = false := by decide +kernel
  obtain ⟨v, lapses⟩ := Option.isSome_iff_exists.mp
    (by decide +kernel : (midnight 19781).lapse?.isSome = true)
  obtain ⟨w, lapses'⟩ := Option.isSome_iff_exists.mp (by decide +kernel : februaryNoon.lapse?.isSome = true)
  obtain ⟨-, -, moves, orders⟩ := lapse_shifts (midnight 19781) early
  obtain ⟨-, -, moves', -⟩ := lapse_shifts februaryNoon late
  obtain ⟨-, -, -, atMidnight, -⟩ := moves v lapses
  obtain ⟨-, -, nano, -, afterMidnight⟩ := moves' w lapses'
  obtain ⟨sameDate, lastSecond⟩ := atMidnight (by decide +kernel)
  obtain ⟨nextDate, secondBefore⟩ := afterMidnight (by decide)
  refine ⟨by decide +kernel, by decide +kernel, early, late, v, w, lapses, lapses', ?_, ?_, lastSecond, ?_,
    secondBefore, nano⟩
  · exact (orders februaryNoon v w late lapses lapses').mp (by decide +kernel)
  · rw [sameDate]
    decide +kernel
  · rw [nextDate]
    decide +kernel

example : first.lapse? = none := by decide +kernel

example : (ofText? "2016-12-31T23:59:60.5Z").bind lapse? =
    (ofText? "2017-01-01T00:00:00.5Z").bind lapse? := by decide +kernel

end Instant

end Coverage
