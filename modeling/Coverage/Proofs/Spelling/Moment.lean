import Coverage.Proofs.Spelling.Grammar
/-!
Which instant a stamp names. The number of a day grows by one from each date to the next, so it counts
the days since 1970-01-01, and no two dates share it; a stamp of the years 0 to 9999 names the instant that
its fields add up to.
Instants of these years are printed in the strict style.
-/

namespace Coverage

namespace Calendar

namespace Date

def next (date : Date) : Date :=
  if date.day < daysInMonth date.year date.month then { date with day := date.day + 1 }
  else if date.month < 12 then ⟨date.year, date.month + 1, 1⟩
  else ⟨date.year + 1, 1, 1⟩

def daysBefore (year : Int) (month : Nat) : Nat := total ((monthLengths (isLeap year)).take (month - 1))

theorem toDay_eq (date : Date) :
    date.toDay = firstOfYear date.year + daysBefore date.year date.month + (date.day - 1) := by
  rw [toDay, foldl_add, Nat.zero_add, daysBefore]

theorem daysBefore_succ (year : Int) {month : Nat} (first : 1 ≤ month) (last : month ≤ 12) :
    daysBefore year (month + 1) = daysBefore year month + daysInMonth year month := by
  have table : ∀ leap, ∀ m < 12, total ((monthLengths leap).take (m + 1)) =
      total ((monthLengths leap).take m) + (monthLengths leap)[m]?.getD 0 := by decide
  have entry := table (isLeap year) (month - 1) (by omega)
  have again : month - 1 + 1 = month + 1 - 1 := by omega
  rw [again] at entry
  rw [daysBefore, daysBefore, entry, daysInMonth, if_neg (by omega)]

theorem daysBefore_le (year : Int) {month : Nat} (last : month ≤ 12) : daysBefore year month ≤ 335 := by
  have table : ∀ leap, ∀ m < 12, total ((monthLengths leap).take m) ≤ 335 := by decide
  exact table _ _ (by omega)

theorem daysInMonth_pos (year : Int) {month : Nat} (first : 1 ≤ month) (last : month ≤ 12) :
    1 ≤ daysInMonth year month := by
  have table : ∀ leap, ∀ m < 12, 1 ≤ (monthLengths leap)[m]?.getD 0 := by decide
  rw [daysInMonth, if_neg (by omega)]
  exact table _ _ (by omega)

theorem daysInMonth_le_leap (year : Int) {month : Nat} (last : month ≤ 12) :
    daysInMonth year month ≤ daysInMonth 2000 month := by
  have table : ∀ leap, ∀ m < 12, (monthLengths leap)[m]?.getD 0 ≤ (monthLengths true)[m]?.getD 0 := by
    decide
  by_cases first : month = 0
  · simp [daysInMonth, first]
  · rw [daysInMonth, daysInMonth, if_neg first, if_neg first]
    exact table _ _ (by omega)

theorem exists_next {date : Date} (existing : date.Exists) : date.next.Exists := by
  obtain ⟨firstMonth, lastMonth, firstDay, lastDay⟩ := existing
  unfold next
  split
  · next inside => exact ⟨firstMonth, lastMonth, Nat.le_add_left 1 _, inside⟩
  · split
    · next inside =>
      exact ⟨Nat.le_add_left 1 _, inside, le_rfl, daysInMonth_pos _ (Nat.le_add_left 1 _) inside⟩
    · have january : 1 ≤ daysInMonth (date.year + 1) 1 := daysInMonth_pos _ le_rfl (by decide)
      exact ⟨le_rfl, Nat.le_add_left 1 11, le_rfl, january⟩

theorem toDay_next {date : Date} (existing : date.Exists) : date.next.toDay = date.toDay + 1 := by
  obtain ⟨firstMonth, lastMonth, firstDay, lastDay⟩ := existing
  have months := daysBefore_succ date.year firstMonth lastMonth
  unfold next
  split
  · simp only [toDay_eq]
    omega
  · split
    · simp only [toDay_eq, months]
      omega
    · have december : date.month = 12 := by omega
      have whole : daysBefore date.year (date.month + 1) = total (monthLengths (isLeap date.year)) := by
        rw [december]
        rfl
      have january : daysBefore (date.year + 1) 1 = 0 := rfl
      simp only [toDay_eq, firstOfYear_succ, january, ← whole, months]
      omega

variable {date other : Date}

theorem daysBefore_mono (year : Int) {month later : Nat} (order : month ≤ later) (last : later ≤ 13) :
    daysBefore year month ≤ daysBefore year later := by
  have table : ∀ leap, ∀ n < 13, ∀ m < n + 1,
      total ((monthLengths leap).take m) ≤ total ((monthLengths leap).take n) := by decide
  exact table _ _ (by omega) _ (by omega)

theorem firstOfYear_succ_le {year later : Int} (order : year < later) :
    firstOfYear (year + 1) ≤ firstOfYear later := by
  have through := leapYearsThrough_bounds year
  have through' := leapYearsThrough_bounds (later - 1)
  by_cases next : later = year + 1
  · exact Int.le_of_eq (by rw [next])
  · unfold firstOfYear
    rw [Int.add_sub_cancel]
    omega

theorem toDay_bounds (existing : date.Exists) :
    firstOfYear date.year + daysBefore date.year date.month ≤ date.toDay ∧
      date.toDay < firstOfYear date.year + daysBefore date.year (date.month + 1) := by
  obtain ⟨firstMonth, lastMonth, first, last⟩ := existing
  rw [toDay_eq, daysBefore_succ date.year firstMonth lastMonth]
  omega

theorem toDay_lt_firstOfYear_succ (existing : date.Exists) : date.toDay < firstOfYear (date.year + 1) := by
  have lastMonth := existing.2.1
  have inside := (toDay_bounds existing).2
  have months : daysBefore date.year (date.month + 1) ≤ daysBefore date.year 13 :=
    daysBefore_mono date.year (by omega) le_rfl
  have whole : daysBefore date.year 13 = total (monthLengths (isLeap date.year)) := rfl
  rw [firstOfYear_succ, ← whole]
  omega

theorem year_le_of_toDay_le (existing : date.Exists) (existing' : other.Exists)
    (order : date.toDay ≤ other.toDay) : date.year ≤ other.year := by
  by_contra later
  have years := firstOfYear_succ_le (Int.not_le.mp later)
  have inside := toDay_lt_firstOfYear_succ existing'
  have first := (toDay_bounds existing).1
  omega

theorem month_le_of_toDay_le (existing : date.Exists) (existing' : other.Exists)
    (year : date.year = other.year) (order : date.toDay ≤ other.toDay) : date.month ≤ other.month := by
  by_contra later
  have lastMonth := existing.2.1
  have months : daysBefore date.year (other.month + 1) ≤ daysBefore date.year date.month :=
    daysBefore_mono date.year (by omega) (by omega)
  have inside := (toDay_bounds existing').2
  have first := (toDay_bounds existing).1
  rw [← year] at inside
  omega

theorem eq_of_toDay (existing : date.Exists) (existing' : other.Exists) (same : date.toDay = other.toDay) :
    date = other := by
  have order : date.toDay ≤ other.toDay := Int.le_of_eq same
  have order' : other.toDay ≤ date.toDay := Int.le_of_eq same.symm
  have year : date.year = other.year :=
    Int.le_antisymm (year_le_of_toDay_le existing existing' order)
      (year_le_of_toDay_le existing' existing order')
  have month : date.month = other.month :=
    Nat.le_antisymm (month_le_of_toDay_le existing existing' year order)
      (month_le_of_toDay_le existing' existing year.symm order')
  have first := existing.2.2.1
  have first' := existing'.2.2.1
  rw [toDay_eq, toDay_eq, year, month] at same
  have day : date.day = other.day := by omega
  cases date
  cases other
  simp_all

theorem ofDay_succ (day : Int) : ofDay (day + 1) = (ofDay day).next := by
  obtain ⟨existing, number⟩ := ofDay_spec day
  obtain ⟨existing', number'⟩ := ofDay_spec (day + 1)
  apply eq_of_toDay existing' (exists_next existing)
  rw [number', toDay_next existing, number]

end Date

end Calendar

namespace Stamp

variable {s : Stamp}

/-- The instant is the one that the fields of the stamp add up to. Second 60 is kept as second 59 with a
whole second more in the nanosecond field. -/
structure Names (s : Stamp) (t : Instant) : Prop where
  seconds : t.unixSeconds =
    86400 * s.date.toDay + (3600 * s.hour + 60 * s.minute + min s.second 59) - 60 * s.offset
  nano : t.nano = s.fraction + if s.second = 60 then 10 ^ 9 else 0

theorem nano_eq (s : Stamp) : s.nano = s.fraction + if s.second = 60 then 10 ^ 9 else 0 := by
  unfold nano
  split <;> rfl

theorem names_of_instant? {t : Instant} (named : s.instant? = some t) : s.Names t := by
  unfold instant? at named
  split at named
  · obtain ⟨day, second, nano⟩ := Instant.make?_eq_some.mp named
    constructor
    · unfold Instant.unixSeconds
      rw [day, second, localSecond]
      omega
    · rw [nano, nano_eq]
  · cases named

theorem Names.unique {t u : Instant} (first : s.Names t) (other : s.Names u) : t = u := by
  have seconds : t.unixSeconds = u.unixSeconds := first.seconds.trans other.seconds.symm
  have nano : t.nano = u.nano := first.nano.trans other.nano.symm
  have firstBound := t.second_lt
  have otherBound := u.second_lt
  unfold Instant.unixSeconds at seconds
  have day : t.day = u.day := by omega
  have second : t.second = u.second := by omega
  cases t
  cases u
  simp_all

/-- Offsets are whole minutes, so second 60 stays the last one of its minute. -/
theorem Names.isSettled {t : Instant} (names : s.Names t) (fraction : s.fraction < 10 ^ 9) :
    t.IsSettled := by
  intro leap
  have late : 1000000000 ≤ t.nano := of_decide_eq_true leap
  have sixty : s.second = 60 := by
    by_contra other
    have nano := names.nano
    rw [if_neg other] at nano
    omega
  have seconds := names.seconds
  rw [sixty, Instant.unixSeconds] at seconds
  omega

theorem exists_of_instant? {t : Instant} (named : s.instant? = some t) : s.date.Exists ∧ s.TimeExists := by
  unfold instant? at named
  split at named
  · next existing => exact ⟨existing.1, existing.2.1⟩
  · cases named

/-- A date and a time that exist, in a year of four digits, and an offset of less than a day. -/
structure Ordinary (s : Stamp) : Prop where
  date : s.date.Exists
  time : s.TimeExists
  low : 0 ≤ s.date.year
  high : s.date.year ≤ 9999
  fraction : s.fraction < 10 ^ 9
  offset : s.offset.natAbs < 1440

theorem Ordinary.exists_instant (ordinary : s.Ordinary) : ∃ t, s.instant? = some t := by
  obtain ⟨date, time, low, high, fraction, offset⟩ := ordinary
  obtain ⟨hour, minute, second⟩ := time
  have lastMonth := date.2.1
  have lastDay := date.2.2.2.trans (Calendar.daysInMonth_le _ _)
  have before := Calendar.Date.daysBefore_le s.date.year lastMonth
  have day := Calendar.Date.toDay_eq s.date
  have inside : firstDay + 1 ≤ s.date.toDay ∧ s.date.toDay ≤ Coverage.lastDay - 1 := by
    unfold Calendar.firstOfYear Calendar.leapYearsThrough at day
    unfold firstDay Coverage.lastDay
    omega
  have bounds : s.date.Exists ∧ s.TimeExists ∧ firstDay ≤ s.date.toDay ∧
      s.date.toDay ≤ Coverage.lastDay := ⟨date, ⟨hour, minute, second⟩, by omega, by omega⟩
  have nano : s.nano < 2000000000 := by
    rw [nano_eq]
    split <;> omega
  rw [instant?, if_pos bounds]
  unfold localSecond
  refine ⟨_, dif_pos ⟨?_, ?_, ?_, nano⟩⟩
  · omega
  · omega
  · omega

theorem numeral_padded {width n : Nat} (positive : 0 < width) (fits : n < 10 ^ width) :
    Numeral width width (Text.padded width n) n := by
  have length : (Text.padded width n).length = width := Text.length_padded positive fits
  exact ⟨fun c => Text.isDigit_of_mem_padded, length.ge, length.le, Text.ofDigits_padded width n⟩

theorem fractionOf_padded (width : Nat) {n : Nat} (positive : 0 < width) (short : width ≤ 9)
    (fits : n < 10 ^ width) : FractionOf ('.' :: Text.padded width n) (n * 10 ^ (9 - width)) := by
  have numeral := numeral_padded positive fits
  have length : (Text.padded width n).length = width := numeral.room.antisymm numeral.enough
  have scale : 10 ^ 9 = 10 ^ (9 - width) * 10 ^ width := by
    rw [← Nat.pow_add, Nat.sub_add_cancel short]
  have value : Text.ofDigits (Text.padded width n) * 10 ^ 9 / 10 ^ (Text.padded width n).length =
      n * 10 ^ (9 - width) :=
    calc
      _ = n * 10 ^ 9 / 10 ^ width := by rw [numeral.value, length]
      _ = n * 10 ^ (9 - width) * 10 ^ width / 10 ^ width := by rw [scale, Nat.mul_assoc]
      _ = n * 10 ^ (9 - width) := Nat.mul_div_cancel _ (Nat.pow_pos (by decide))
  rw [← value]
  exact .digits (Text.padded_ne_nil width n) numeral.all

theorem fractionOf_fractionText {n : Nat} (small : n < 10 ^ 9) : FractionOf (Instant.fractionText n) n := by
  unfold Instant.fractionText
  split
  · next zero =>
    rw [zero]
    exact .none
  · split
    · next millis =>
      have spelled := fractionOf_padded 3 (by decide) (by decide) (show n / 1000000 < 10 ^ 3 by omega)
      have value : n / 1000000 * 10 ^ (9 - 3) = n := by omega
      rwa [value] at spelled
    · split
      · next micros =>
        have spelled := fractionOf_padded 6 (by decide) (by decide) (show n / 1000 < 10 ^ 6 by omega)
        have value : n / 1000 * 10 ^ (9 - 6) = n := by omega
        rwa [value] at spelled
      · have spelled := fractionOf_padded 9 (by decide) (by decide) small
        have value : n * 10 ^ (9 - 9) = n := by omega
        rwa [value] at spelled

def offsetText (between : List Char) (minutes : Int) : List Char :=
  (if minutes < 0 then '-' else '+') ::
    (Text.padded 2 (minutes.natAbs / 60) ++ (between ++ Text.padded 2 (minutes.natAbs % 60)))

theorem offsetOf_offsetText {kind : List Char → Prop} {between : List Char} (apart : kind between)
    {minutes : Int} (small : minutes.natAbs < 1440) : OffsetOf kind (offsetText between minutes) minutes := by
  have hour : Numeral 2 2 (Text.padded 2 (minutes.natAbs / 60)) (minutes.natAbs / 60) :=
    numeral_padded (by decide) (show minutes.natAbs / 60 < 10 ^ 2 by omega)
  have minute : Numeral 2 2 (Text.padded 2 (minutes.natAbs % 60)) (minutes.natAbs % 60) :=
    numeral_padded (by decide) (show minutes.natAbs % 60 < 10 ^ 2 by omega)
  have whole : minutes.natAbs / 60 * 60 + minutes.natAbs % 60 = minutes.natAbs := Nat.div_add_mod' _ 60
  have offset {sign : Char} {factor : Int} (signed : SignOf sign factor) :=
    OffsetOf.mk signed hour apart minute (by omega) (by omega)
  unfold offsetText
  split
  · next negative =>
    have value : -1 * ((minutes.natAbs / 60 * 60 + minutes.natAbs % 60 : Nat) : Int) = minutes := by omega
    have spelled := offset .hyphen
    rwa [value] at spelled
  · next positive =>
    have value : 1 * ((minutes.natAbs / 60 * 60 + minutes.natAbs % 60 : Nat) : Int) = minutes := by omega
    have spelled := offset .plus
    rwa [value] at spelled

def parts (zone : List Char) (s : Stamp) : Parts where
  year := Instant.yearText s.date.year
  month := Text.padded 2 s.date.month
  day := Text.padded 2 s.date.day
  joint := 'T'
  hour := Text.padded 2 s.hour
  minute := Text.padded 2 s.minute
  second := Text.padded 2 s.second
  fraction := Instant.fractionText s.fraction
  zone := zone

def spelled (between : List Char) (s : Stamp) : List Char := (s.parts (offsetText between s.offset)).chars

namespace Ordinary

variable (ordinary : s.Ordinary) {zone : List Char}

include ordinary

theorem spells (spelled : ZoneOf Colon zone s.offset) : Spells .strict (s.parts zone) s := by
  obtain ⟨⟨-, lastMonth, -, lastDay⟩, ⟨hour, minute, second⟩, low, high, small, -⟩ := ordinary
  have day := lastDay.trans (Calendar.daysInMonth_le _ _)
  have two {n : Nat} (bound : n < 100) : Numeral 2 2 (Text.padded 2 n) n := numeral_padded (by decide) bound
  have year : Instant.yearText s.date.year = Text.padded 4 s.date.year.toNat := if_pos ⟨low, high⟩
  refine ⟨?_, two (by omega), two (by omega), List.mem_cons_self, two (by omega), two (by omega),
    two (by omega), fractionOf_fractionText small, spelled⟩
  refine ⟨s.date.year.toNat, ?_, (Int.toNat_of_nonneg low).symm⟩
  show Numeral 4 4 (Instant.yearText s.date.year) _
  rw [year]
  exact numeral_padded (by decide) (show s.date.year.toNat < 10000 by omega)

theorem spells_colonless (spelled : OffsetOf Loose zone s.offset) : Spells .colonless (s.parts zone) s := by
  have strict := ordinary.spells (.offset (offsetOf_offsetText colon_singleton ordinary.offset))
  exact strict.respell .colonless Style.strict_within_relaxed.field List.mem_cons_self
    (yearOf_of_strict strict.year) (indented_of_word spelled)

theorem written_spelled {between : List Char} (apart : between = [':'] ∨ between = []) :
    Written (s.spelled between) s := by
  rcases apart with rfl | rfl
  · have offset := offsetOf_offsetText colon_singleton ordinary.offset
    exact ⟨_, rfl, .inl (ordinary.spells (.offset offset))⟩
  · have offset := offsetOf_offsetText loose_nil ordinary.offset
    exact ⟨_, rfl, .inr (ordinary.spells_colonless offset)⟩

end Ordinary

end Stamp

namespace Instant

open Stamp

/-- Whatever a text names, and however it is spelled, has a text of its own. -/
theorem isSettled_of_ofText? {text : String} {t : Instant} (read : ofText? text = some t) : t.IsSettled := by
  obtain ⟨stamp, spelled, named⟩ := Option.bind_eq_some_iff.mp read
  exact (names_of_instant? named).isSettled (fraction_lt_of_relaxed? spelled)

theorem chars_parts (zone : List Char) (t : Instant) : (t.stamp.parts zone).chars = t.chars zone := by
  simp [Parts.chars, Parts.afterYear, parts, stamp, chars, dateText, timeText]

theorem chars_settled (zone : List Char) (t : Instant) : t.settled.chars zone = t.chars zone := by
  rw [← chars_parts, stamp_settled, chars_parts]

theorem ordinary_stamp {t : Instant} (low : 0 ≤ (Calendar.Date.ofDay t.day).year)
    (high : (Calendar.Date.ofDay t.day).year ≤ 9999) : t.stamp.Ordinary := by
  obtain ⟨date, time⟩ := exists_of_instant? t.instant?_stamp
  have bound := t.nano_lt
  have fraction : t.stamp.fraction < 10 ^ 9 := by
    show (if 1000000000 ≤ t.nano then t.nano - 1000000000 else t.nano) < 1000000000
    split <;> omega
  have offset : t.stamp.offset.natAbs < 1440 := show (0 : Int).natAbs < 1440 by decide
  exact ⟨date, time, low, high, fraction, offset⟩

theorem written_chars {t : Instant} (ordinary : t.stamp.Ordinary) {zone : List Char}
    (utc : ZoneOf Colon zone 0) : Written (t.chars zone) t.stamp := by
  rw [← chars_parts]
  exact ⟨_, rfl, .inl (ordinary.spells utc)⟩

/-- Of these years the settled instants are those that timestamps name. -/
theorem settled_eq_iff_named {t : Instant} (ordinary : t.stamp.Ordinary) :
    t.settled = t ↔ ∃ stamp : Stamp, stamp.Ordinary ∧ stamp.Names t := by
  constructor
  · intro own
    have named := names_of_instant? t.instant?_stamp
    rw [own] at named
    exact ⟨t.stamp, ordinary, named⟩
  · rintro ⟨stamp, written, names⟩
    exact settled_eq_iff.mpr (names.isSettled written.fraction)

end Instant

end Coverage
