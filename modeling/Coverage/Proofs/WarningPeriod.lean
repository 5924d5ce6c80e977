import Coverage.Proofs.Span
/-!
The warning period of a certificate: a whole number of days of 86400 seconds that ends where the window
closes. On the line of nanoseconds its start is a number also where no instant lies, and outside of leap
seconds the line tells how far two instants are apart.
-/

namespace Coverage

namespace Instant

variable {t u : Instant}

theorem nano_lt_of_regular (regular : t.isLeap = false) : t.nano < 1000000000 := by
  rw [isLeap, decide_eq_false_iff_not] at regular
  omega

theorem since_of_regular (regular : t.isLeap = false) (regular' : u.isLeap = false) :
    t.since u = t.nanoseconds - u.nanoseconds := by
  have none : t.leapSince u = 0 := by simp [leapSince, regular, regular']
  rw [since_eq, none]
  omega

theorem lt_iff_nanoseconds (regular : t.isLeap = false) (regular' : u.isLeap = false) :
    t < u ↔ t.nanoseconds < u.nanoseconds := by
  have nano := nano_lt_of_regular regular
  have nano' := nano_lt_of_regular regular'
  have second := t.second_lt
  have second' := u.second_lt
  rw [lt_iff, nanoseconds, nanoseconds, unixSeconds, unixSeconds]
  omega

theorem nanoseconds_of_shift? {seconds : Int} (regular : t.isLeap = false)
    (shifted : t.shift? seconds = some u) :
    u.isLeap = false ∧ u.nanoseconds = t.nanoseconds + seconds * 1000000000 := by
  have small := nano_lt_of_regular regular
  have made : make? ((t.day * 86400 + t.second + seconds) / 86400)
      ((t.day * 86400 + t.second + seconds) % 86400).toNat t.nano = some u := by
    simpa [shift?, departure, regular] using shifted
  unfold make? at made
  split at made
  · cases made
    constructor
    · simp [isLeap, small]
    · simp only [nanoseconds, unixSeconds]
      omega
  · cases made

/-- Where on the line of nanoseconds the last days before an instant begin. -/
def daysBefore (t : Instant) (days : Nat) : Int := t.nanoseconds - days * 86400 * 1000000000

/-- If an instant lies there, being later than that is a matter of the order. -/
theorem daysBefore_lt_iff {start : Instant} {days : Nat} (regular : t.isLeap = false)
    (regular' : u.isLeap = false) (shifted : t.shift? (-(days * 86400 : Nat)) = some start) :
    t.daysBefore days < u.nanoseconds ↔ start < u := by
  obtain ⟨startRegular, moved⟩ := nanoseconds_of_shift? regular shifted
  have same : t.daysBefore days = start.nanoseconds := by
    rw [daysBefore, moved]
    omega
  rw [same]
  exact (lt_iff_nanoseconds startRegular regular').symm

theorem le_trans {v : Instant} (first : t ≤ u) (second : u ≤ v) : t ≤ v := by
  simp only [le_iff_not_lt, lt_iff] at *
  omega

end Instant

namespace Certificate

open Assessment (midnight)

variable {c : Certificate} {t u : Instant}

def isExpiringAt? (c : Certificate) (t : Instant) : Option Bool :=
  match c.order with
  | none => some false
  | some order =>
    if ¬0 < order.warningDays then some false
    else if !c.window.contains t then some false
    else do
      let left ← c.window.closes.since? t
      let period ← Span.ofDays? order.warningDays.toNat
      return left < period

/-- The certificate has an order with a warning period, and the instant is in its window and, on the line of
nanoseconds, later than the start of that period. -/
def InWarningPeriod (c : Certificate) (t : Instant) : Prop :=
  ∃ order, c.order = some order ∧ 0 < order.warningDays ∧ c.window.opens ≤ t ∧ t < c.window.closes ∧
    c.window.closes.daysBefore order.warningDays.toNat < t.nanoseconds

theorem warningDays_of_order {order : Order} (ordered : c.order = some order) :
    c.warningDays = order.warningDays.toNat := by
  rw [warningDays, ordered]
  rfl

theorem exists_ofDays?_warning (order : Order) : ∃ s, Span.ofDays? order.warningDays.toNat = some s ∧
    s.total = order.warningDays.toNat * 86400 * 1000000000 := by
  have small : order.warningDays.toNat < 4294967296 := order.warningDays.toNat_lt
  apply Span.exists_ofDays?
  rw [Span.Fits, longestSpan]
  omega

theorem isExpiringAt_of_order {order : Order} (ordered : c.order = some order) :
    c.isExpiringAt t = (decide (0 < order.warningDays) && c.window.contains t &&
      decide (c.window.remaining t < order.warningDays.toNat * 86400 * 1000000000)) := by
  rw [isExpiringAt, warningDays_of_order ordered]
  rfl

/-- No span on the way is ever too long. -/
theorem isExpiringAt?_eq (c : Certificate) (t : Instant) :
    c.isExpiringAt? t = some (c.isExpiringAt t) := by
  unfold isExpiringAt?
  cases ordered : c.order with
  | none => simp [isExpiringAt, warningDays, ordered]
  | some order =>
      obtain ⟨left, leftMade, leftTotal⟩ := Instant.exists_since? c.window.closes t
      obtain ⟨period, periodMade, periodTotal⟩ := exists_ofDays?_warning order
      have compared : left < period ↔
          c.window.remaining t < order.warningDays.toNat * 86400 * 1000000000 := by
        rw [Span.lt_iff_total, leftTotal, periodTotal, Window.remaining]
      rw [isExpiringAt_of_order ordered]
      by_cases warns : 0 < order.warningDays
      · cases inForce : c.window.contains t with
        | false => simp [warns]
        | true => simp [warns, leftMade, periodMade, compared]
      · simp [warns]

theorem isExpiringAt_iff (regular : c.window.closes.isLeap = false) (regular' : t.isLeap = false) :
    c.isExpiringAt t = true ↔ c.InWarningPeriod t := by
  unfold InWarningPeriod
  cases ordered : c.order with
  | none => simp [isExpiringAt, warningDays, ordered]
  | some order =>
      have left : c.window.remaining t = c.window.closes.nanoseconds - t.nanoseconds :=
        Instant.since_of_regular regular regular'
      have later : c.window.remaining t < order.warningDays.toNat * 86400 * 1000000000 ↔
          c.window.closes.daysBefore order.warningDays.toNat < t.nanoseconds := by
        rw [left, Instant.daysBefore]
        omega
      rw [isExpiringAt_of_order ordered]
      simp only [Window.contains, Bool.and_eq_true, decide_eq_true_eq, later, Option.some.injEq,
        exists_eq_left', and_assoc]

theorem InWarningPeriod.later (warning : c.InWarningPeriod t) (regular : t.isLeap = false)
    (regular' : u.isLeap = false) (order : t ≤ u) (open' : u < c.window.closes) :
    c.InWarningPeriod u := by
  obtain ⟨named, ordered, warns, opened, -, started⟩ := warning
  refine ⟨named, ordered, warns, Instant.le_trans opened order, open', ?_⟩
  have forward : t.nanoseconds ≤ u.nanoseconds := by
    rw [Instant.le_iff_not_lt, Instant.lt_iff_nanoseconds regular' regular] at order
    omega
  calc c.window.closes.daysBefore named.warningDays.toNat < t.nanoseconds := started
    _ ≤ u.nanoseconds := forward

theorem isExpiringAt_of_longer {longer : Certificate} (same : longer.window = c.window)
    (days : c.warningDays ≤ longer.warningDays) (expiring : c.isExpiringAt t = true) :
    longer.isExpiringAt t = true := by
  simp only [isExpiringAt, Bool.and_eq_true, decide_eq_true_eq, same] at expiring ⊢
  obtain ⟨⟨warns, inForce⟩, left⟩ := expiring
  refine ⟨⟨?_, inForce⟩, ?_⟩
  · exact Nat.lt_of_lt_of_le warns days
  · omega

/-- Whether a certificate is expiring can always be computed. Outside of leap seconds it is so from some
number of days before the close, on the line of nanoseconds and also where no instant lies there, up to the
close, as long as the window is open; so from then on until the close it stays expiring, and with a longer
warning period it is expiring whenever it was. -/
theorem warning_period_exact (c : Certificate) (regular : c.window.closes.isLeap = false) :
    (∀ t, c.isExpiringAt? t = some (c.isExpiringAt t)) ∧
      (∀ t, t.isLeap = false → (c.isExpiringAt t = true ↔ c.InWarningPeriod t)) ∧
      (∀ days t start, t.isLeap = false → c.window.closes.shift? (-(days * 86400 : Nat)) = some start →
        (c.window.closes.daysBefore days < t.nanoseconds ↔ start < t)) ∧
      (∀ t u, t.isLeap = false → u.isLeap = false → c.isExpiringAt t = true → t ≤ u →
        u < c.window.closes → c.isExpiringAt u = true) ∧
      ∀ (longer : Certificate) (t : Instant), longer.window = c.window → c.warningDays ≤ longer.warningDays →
        c.isExpiringAt t = true → longer.isExpiringAt t = true := by
  refine ⟨isExpiringAt?_eq c, ?_, ?_, ?_, ?_⟩
  · intro t regular'
    exact isExpiringAt_iff regular regular'
  · intro days t start regular' shifted
    exact Instant.daysBefore_lt_iff regular regular' shifted
  · intro t u regularT regularU expiring order before
    have warning := (isExpiringAt_iff regular regularT).mp expiring
    exact (isExpiringAt_iff regular regularU).mpr (warning.later regularT regularU order before)
  · intro longer t same days expiring
    exact isExpiringAt_of_longer same days expiring

def farWarning : Certificate where
  serial := 1
  window := ⟨midnight 100, midnight 300⟩
  products := []
  order := some ⟨none, none, 4294967295⟩

theorem warning_period_exact_far :
    farWarning.window.closes.isLeap = false ∧
      farWarning.window.closes.shift? (-(4294967295 * 86400)) = none ∧
      farWarning.InWarningPeriod (midnight 100) ∧
      farWarning.isExpiringAt? (midnight 100) = some true ∧
      farWarning.isExpiringAt (midnight 299) = true := by
  have regular : farWarning.window.closes.isLeap = false := by decide +kernel
  have expiring : farWarning.isExpiringAt (midnight 100) = true := by decide +kernel
  obtain ⟨computed, exact', -, lasting, -⟩ := warning_period_exact farWarning regular
  refine ⟨regular, by decide +kernel, ?_, ?_, ?_⟩
  · exact (exact' (midnight 100) (by decide +kernel)).mp expiring
  · rw [computed, expiring]
  · exact lasting (midnight 100) (midnight 299) (by decide +kernel) (by decide +kernel) expiring
      (by decide +kernel) (by decide +kernel)

end Certificate

end Coverage
