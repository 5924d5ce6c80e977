import Coverage.Instant.Basic
/-!
Timestamps as they are written: a date, a time of day whose second may be 60, a fraction of a second
and an offset from UTC in minutes. A stamp names an instant if its date and time exist and both the
local day and the instant lie in the range of instants.
-/

namespace Coverage

structure Stamp where
  date : Calendar.Date
  hour : Nat
  minute : Nat
  second : Nat
  /-- Nanoseconds, below 10^9. -/
  fraction : Nat
  offset : Int
  deriving DecidableEq, Repr

namespace Stamp

def TimeExists (s : Stamp) : Prop := s.hour < 24 ∧ s.minute < 60 ∧ s.second ≤ 60

instance (s : Stamp) : Decidable s.TimeExists := inferInstanceAs (Decidable (_ ∧ _))

/-- The second of the local day; second 60 counts as the one before it. -/
def localSecond (s : Stamp) : Int := s.hour * 3600 + s.minute * 60 + min s.second 59

def nano (s : Stamp) : Nat := if s.second = 60 then s.fraction + 1000000000 else s.fraction

def instant? (s : Stamp) : Option Instant :=
  if s.date.Exists ∧ s.TimeExists ∧ firstDay ≤ s.date.toDay ∧ s.date.toDay ≤ lastDay then
    let total := s.date.toDay * 86400 + s.localSecond - s.offset * 60
    Instant.make? (total / 86400) (total % 86400).toNat s.nano
  else none

end Stamp

end Coverage
