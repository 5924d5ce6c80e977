/-!
The proleptic Gregorian calendar. Days are numbered from 1970-01-01, which is day 0; the year of a day
is estimated from the mean length of a year and then corrected by at most one.
-/

namespace Coverage.Calendar

def isLeap (year : Int) : Bool :=
  year % 4 == 0 && (year % 100 != 0 || year % 400 == 0)

def monthLengths (leap : Bool) : List Nat :=
  [31, if leap then 29 else 28, 31, 30, 31, 30, 31, 31, 30, 31, 30, 31]

def daysInMonth (year : Int) (month : Nat) : Nat :=
  if month = 0 then 0 else (monthLengths (isLeap year))[month - 1]?.getD 0

def leapYearsThrough (year : Int) : Int := year / 4 - year / 100 + year / 400

def firstOfYear (year : Int) : Int := 365 * (year - 1970) + leapYearsThrough (year - 1) - 477

structure Date where
  year : Int
  month : Nat
  day : Nat
  deriving DecidableEq, Repr

namespace Date

def Exists (date : Date) : Prop :=
  1 ≤ date.month ∧ date.month ≤ 12 ∧ 1 ≤ date.day ∧ date.day ≤ daysInMonth date.year date.month

instance (date : Date) : Decidable date.Exists := inferInstanceAs (Decidable (_ ∧ _))

def toDay (date : Date) : Int :=
  let before : Nat := ((monthLengths (isLeap date.year)).take (date.month - 1)).foldl (· + ·) 0
  firstOfYear date.year + before + (date.day - 1)

end Date

def yearOf (day : Int) : Int :=
  let estimate := 1970 + day * 400 / 146097
  if firstOfYear (estimate + 1) ≤ day then estimate + 1
  else if day < firstOfYear estimate then estimate - 1
  else estimate

/-- The month, counted from `month`, and the day in it, both from one, of the `n`-th day from the
start of that month. -/
def monthAndDay (month : Nat) : List Nat → Nat → Nat × Nat
  | [], n => (month, n + 1)
  | length :: rest, n => if n < length then (month, n + 1) else monthAndDay (month + 1) rest (n - length)

def Date.ofDay (day : Int) : Date :=
  let year := yearOf day
  let (month, dayOfMonth) := monthAndDay 1 (monthLengths (isLeap year)) (day - firstOfYear year).toNat
  ⟨year, month, dayOfMonth⟩

theorem leapYearsThrough_bounds (year : Int) :
    97 * year - 699 ≤ 400 * leapYearsThrough year ∧ 400 * leapYearsThrough year ≤ 97 * year + 396 := by
  unfold leapYearsThrough
  omega

theorem firstOfYear_yearOf (day : Int) :
    firstOfYear (yearOf day) ≤ day ∧ day < firstOfYear (yearOf day + 1) := by
  have bounds := leapYearsThrough_bounds
  unfold yearOf
  simp only
  split
  · refine ⟨by assumption, ?_⟩
    have := bounds (1970 + day * 400 / 146097 + 1 + 1 - 1)
    unfold firstOfYear
    omega
  · split
    · refine ⟨?_, ?_⟩
      · have := bounds (1970 + day * 400 / 146097 - 1 - 1)
        unfold firstOfYear
        omega
      · rw [Int.sub_add_cancel]
        assumption
    · omega

end Coverage.Calendar
