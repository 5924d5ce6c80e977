import Coverage.Calendar
/-!
Instants of UTC with nanosecond resolution: a day number, a second of the day and a nanosecond field.
A leap second is kept as the second before it with a nanosecond field of at least 10^9. Timestamps name
leap seconds only at the end of a minute, but any second may have one.
Instants are ordered by day, then second, then nanosecond field.
-/

namespace Coverage

def firstDay : Int := -96465292

def lastDay : Int := 95026236

structure Instant where
  day : Int
  second : Nat
  nano : Nat
  firstDay_le : firstDay ≤ day
  le_lastDay : day ≤ lastDay
  second_lt : second < 86400
  nano_lt : nano < 2000000000
  deriving DecidableEq

namespace Instant

def make? (day : Int) (second nano : Nat) : Option Instant :=
  if h : firstDay ≤ day ∧ day ≤ lastDay ∧ second < 86400 ∧ nano < 2000000000 then
    some ⟨day, second, nano, h.1, h.2.1, h.2.2.1, h.2.2.2⟩
  else none

instance : LT Instant where
  lt a b := a.day < b.day ∨ a.day = b.day ∧
    (a.second < b.second ∨ a.second = b.second ∧ a.nano < b.nano)

instance : LE Instant := ⟨fun a b => ¬ b < a⟩

theorem lt_iff {a b : Instant} : a < b ↔ a.day < b.day ∨ a.day = b.day ∧
    (a.second < b.second ∨ a.second = b.second ∧ a.nano < b.nano) :=
  Iff.rfl

theorem le_iff_not_lt {a b : Instant} : a ≤ b ↔ ¬b < a := Iff.rfl

instance (a b : Instant) : Decidable (a < b) := inferInstanceAs (Decidable (_ ∨ _))

instance (a b : Instant) : Decidable (a ≤ b) := inferInstanceAs (Decidable (¬ _))

def isLeap (t : Instant) : Bool := 1000000000 ≤ t.nano

/-- Whole seconds since 1970-01-01T00:00:00Z, a leap second counted as the second before it. -/
def unixSeconds (t : Instant) : Int := t.day * 86400 + t.second

/-- Nanoseconds from `b` to `a`. A leap second that lies between the two seconds of day is counted. -/
def since (a b : Instant) : Int :=
  let between : Int :=
    if b.second < a.second ∧ b.isLeap then 1 else if a.second < b.second ∧ a.isLeap then -1 else 0
  ((a.day - b.day) * 86400 + ((a.second : Int) - b.second) + between) * 1000000000 +
    ((a.nano : Int) - b.nano)

/-- The second of day and the nanosecond field from which a move by whole seconds starts: a leap
second is left towards its own minute going forward, towards the next one going back. -/
def departure (t : Instant) (seconds : Int) : Nat × Nat :=
  if t.isLeap ∧ 0 < seconds then (t.second, t.nano - 1000000000)
  else if t.isLeap ∧ seconds < 0 then (t.second + 1, t.nano - 1000000000)
  else (t.second, t.nano)

def shift? (t : Instant) (seconds : Int) : Option Instant :=
  let (second, nano) := t.departure seconds
  let total := t.day * 86400 + second + seconds
  make? (total / 86400) (total % 86400).toNat nano

end Instant

end Coverage
