import Coverage.Proofs.Remaining
/-!
Spans of time as they are kept: whole seconds and nanoseconds within limits, added with a carry and compared
by their parts. A sum that leaves the limits has no result. The span between any two instants stays far
within them, and so does any number of days that an order can name.
-/

namespace Coverage

/-- Nanoseconds of the longest span: 2^63 - 1 milliseconds. -/
def longestSpan : Int := 9223372036854775807 * 1000000

structure Span where
  /-- Whole seconds, rounded down. -/
  seconds : Int
  nano : Nat
  nano_lt : nano < 1000000000
  le_total : -longestSpan ≤ seconds * 1000000000 + nano
  total_le : seconds * 1000000000 + nano ≤ longestSpan

namespace Span

def total (s : Span) : Int := s.seconds * 1000000000 + s.nano

def make? (seconds : Int) (nano : Nat) : Option Span :=
  if h : nano < 1000000000 ∧ -longestSpan ≤ seconds * 1000000000 + nano ∧
      seconds * 1000000000 + nano ≤ longestSpan then
    some ⟨seconds, nano, h.1, h.2.1, h.2.2⟩
  else none

def ofDays? (days : Int) : Option Span := make? (days * 86400) 0

def plus? (a b : Span) : Option Span :=
  if a.nano + b.nano < 1000000000 then make? (a.seconds + b.seconds) (a.nano + b.nano)
  else make? (a.seconds + b.seconds + 1) (a.nano + b.nano - 1000000000)

instance : LT Span where
  lt a b := a.seconds < b.seconds ∨ a.seconds = b.seconds ∧ a.nano < b.nano

instance (a b : Span) : Decidable (a < b) := inferInstanceAs (Decidable (_ ∨ _))

variable {a b : Span}

theorem lt_iff : a < b ↔ a.seconds < b.seconds ∨ a.seconds = b.seconds ∧ a.nano < b.nano := Iff.rfl

theorem lt_iff_total : a < b ↔ a.total < b.total := by
  have small := a.nano_lt
  have small' := b.nano_lt
  rw [lt_iff, total, total]
  omega

def Fits (total : Int) : Prop := -longestSpan ≤ total ∧ total ≤ longestSpan

theorem exists_make? {seconds : Int} {nano : Nat} (nano_lt : nano < 1000000000)
    (fits : Fits (seconds * 1000000000 + nano)) :
    ∃ s, make? seconds nano = some s ∧ s.total = seconds * 1000000000 + nano := by
  have legal := And.intro nano_lt fits
  exact ⟨⟨seconds, nano, nano_lt, fits.1, fits.2⟩, dif_pos legal, rfl⟩

theorem exists_ofDays? {days : Int} (fits : Fits (days * 86400 * 1000000000)) :
    ∃ s, ofDays? days = some s ∧ s.total = days * 86400 * 1000000000 := by
  have none : days * 86400 * 1000000000 + (0 : Nat) = days * 86400 * 1000000000 := by omega
  rw [← none] at fits ⊢
  exact exists_make? (by decide) fits

theorem exists_plus? (fits : Fits (a.total + b.total)) :
    ∃ s, a.plus? b = some s ∧ s.total = a.total + b.total := by
  have small := a.nano_lt
  have small' := b.nano_lt
  unfold plus?
  split
  · next whole =>
      have same : a.total + b.total = (a.seconds + b.seconds) * 1000000000 + (a.nano + b.nano : Nat) := by
        unfold total
        omega
      rw [same] at fits ⊢
      exact exists_make? whole fits
  · next carried =>
      have same : a.total + b.total =
          (a.seconds + b.seconds + 1) * 1000000000 + (a.nano + b.nano - 1000000000 : Nat) := by
        unfold total
        omega
      rw [same] at fits ⊢
      exact exists_make? (by omega) fits

end Span

namespace Instant

variable (t u : Instant)

/-- The span from the time of day of one instant to that of another, with a borrow from the seconds. -/
def timeSince? : Option Span :=
  let nanos := (t.nano : Int) - u.nano
  Span.make? ((t.second : Int) - u.second + t.leapSince u + nanos / 1000000000)
    (nanos % 1000000000).toNat

/-- The span between two instants, unless a step on the way is too long. -/
def since? : Option Span := do
  let days ← Span.ofDays? (t.day - u.day)
  let time ← t.timeSince? u
  days.plus? time

theorem leapSince_bounds : -1 ≤ t.leapSince u ∧ t.leapSince u ≤ 1 := by
  unfold leapSince
  split
  · decide
  · split
    · decide
    · decide

theorem exists_timeSince? : ∃ s, t.timeSince? u = some s ∧
    s.total = ((t.second : Int) - u.second + t.leapSince u) * 1000000000 + (t.nano - u.nano) := by
  have bounds := leapSince_bounds t u
  have second := t.second_lt
  have second' := u.second_lt
  have nano := t.nano_lt
  have nano' := u.nano_lt
  -- The borrow leaves the sum as it is.
  have same : ((t.second : Int) - u.second + t.leapSince u) * 1000000000 + (t.nano - u.nano) =
      ((t.second : Int) - u.second + t.leapSince u + ((t.nano : Int) - u.nano) / 1000000000) * 1000000000 +
        (((t.nano : Int) - u.nano) % 1000000000).toNat := by
    omega
  rw [same]
  apply Span.exists_make?
  · omega
  · rw [← same, Span.Fits, longestSpan]
    omega

/-- The parts of the difference never leave the limits, and they add up to it. -/
theorem exists_since? : ∃ s, t.since? u = some s ∧ s.total = t.since u := by
  have bounds := leapSince_bounds t u
  have first := t.firstDay_le
  have last := t.le_lastDay
  have first' := u.firstDay_le
  have last' := u.le_lastDay
  have second := t.second_lt
  have second' := u.second_lt
  have nano := t.nano_lt
  have nano' := u.nano_lt
  unfold firstDay at first first'
  unfold lastDay at last last'
  -- No two instants are 2^28 days apart, and the longest span has more than 2^36 days.
  have daysFit : Span.Fits ((t.day - u.day) * 86400 * 1000000000) := by
    rw [Span.Fits, longestSpan]
    omega
  obtain ⟨days, daysMade, daysTotal⟩ := Span.exists_ofDays? daysFit
  obtain ⟨time, timeMade, timeTotal⟩ := exists_timeSince? t u
  have sum : days.total + time.total = t.since u := by
    rw [daysTotal, timeTotal, since_eq, nanoseconds, nanoseconds, unixSeconds, unixSeconds]
    omega
  have fits : Span.Fits (days.total + time.total) := by
    rw [daysTotal, timeTotal, Span.Fits, longestSpan]
    omega
  obtain ⟨s, made, total⟩ := Span.exists_plus? fits
  refine ⟨s, ?_, total.trans sum⟩
  simp only [since?, daysMade, timeMade, Option.bind_eq_bind, Option.bind_some, made]

end Instant

end Coverage
