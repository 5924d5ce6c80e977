import Mathlib.Data.List.Basic
import Mathlib.Data.List.TakeWhile
import Coverage.Instant.Grammar
import Coverage.Instant.Printer
import Coverage.Proofs.Document.Digits
/-!
Written instants are read back. A day has one date, and the relaxed grammar takes the fields of the
written form apart again: the year with or without a sign, the second 60 of a leap second and the
fraction whatever its length.
-/

namespace Coverage

namespace Calendar

def total (lengths : List Nat) : Nat := lengths.foldr (· + ·) 0

@[simp] theorem total_nil : total [] = 0 := rfl

theorem total_cons (length : Nat) (rest : List Nat) : total (length :: rest) = length + total rest := rfl

theorem foldl_add (n : Nat) (lengths : List Nat) : lengths.foldl (· + ·) n = n + total lengths := by
  induction lengths generalizing n with
  | nil => rfl
  | cons length rest ih => rw [List.foldl_cons, ih, total_cons, Nat.add_assoc]

theorem firstOfYear_succ (year : Int) :
    firstOfYear (year + 1) = firstOfYear year + total (monthLengths (isLeap year)) := by
  cases leap : isLeap year with
  | true =>
      simp only [isLeap, Bool.and_eq_true, Bool.or_eq_true, beq_iff_eq, bne_iff_ne] at leap
      show _ = _ + ((366 : Nat) : Int)
      unfold firstOfYear leapYearsThrough
      omega
  | false =>
      simp only [isLeap, Bool.and_eq_false_iff, Bool.or_eq_false_iff, beq_eq_false_iff_ne,
        bne_eq_false_iff_eq] at leap
      show _ = _ + ((365 : Nat) : Int)
      unfold firstOfYear leapYearsThrough
      omega

theorem monthAndDay_spec {lengths : List Nat} {n : Nat} (inside : n < total lengths) (month : Nat) :
    ∃ i length, lengths[i]? = some length ∧ total (lengths.take i) ≤ n ∧
      n < total (lengths.take i) + length ∧
      monthAndDay month lengths n = (month + i, n - total (lengths.take i) + 1) := by
  induction lengths generalizing month n with
  | nil => cases inside
  | cons head rest ih =>
      by_cases here : n < head
      · exact ⟨0, head, rfl, Nat.zero_le n, by simpa using here, by simp [monthAndDay, here]⟩
      · rw [total_cons] at inside
        obtain ⟨i, length, there, least, most, found⟩ := ih (n := n - head) (by omega) (month + 1)
        refine ⟨i + 1, length, there, ?_, ?_, ?_⟩
        · rw [List.take_succ_cons, total_cons]
          omega
        · rw [List.take_succ_cons, total_cons]
          omega
        · rw [monthAndDay, if_neg here, found, List.take_succ_cons, total_cons]
          ext
          · show month + 1 + i = month + (i + 1)
            omega
          · show n - head - total (rest.take i) + 1 = n - (head + total (rest.take i)) + 1
            omega

theorem ofDay_spec (day : Int) : (Date.ofDay day).Exists ∧ (Date.ofDay day).toDay = day := by
  obtain ⟨low, high⟩ := firstOfYear_yearOf day
  rw [firstOfYear_succ] at high
  have inside : (day - firstOfYear (yearOf day)).toNat < total (monthLengths (isLeap (yearOf day))) := by
    omega
  obtain ⟨i, length, there, least, most, found⟩ := monthAndDay_spec inside 1
  have bound : i < 12 := (List.getElem?_eq_some_iff.mp there).1
  have date : Date.ofDay day = ⟨yearOf day, 1 + i, (day - firstOfYear (yearOf day)).toNat -
      total ((monthLengths (isLeap (yearOf day))).take i) + 1⟩ := by
    rw [Date.ofDay, found]
  rw [date]
  constructor
  · refine ⟨Nat.le_add_right 1 i, by show 1 + i ≤ 12; omega, Nat.le_add_left 1 _, ?_⟩
    have days : daysInMonth (yearOf day) (1 + i) = length := by
      rw [daysInMonth, if_neg (by omega), Nat.add_sub_cancel_left, there]
      rfl
    rw [days]
    show _ - _ + 1 ≤ length
    omega
  · simp only [Date.toDay, Nat.add_sub_cancel_left, foldl_add, Nat.zero_add]
    omega

theorem daysInMonth_le (year : Int) (month : Nat) : daysInMonth year month ≤ 31 := by
  unfold daysInMonth
  split
  · exact Nat.zero_le 31
  · cases there : (monthLengths (isLeap year))[month - 1]? with
    | none => exact Nat.zero_le 31
    | some length =>
        have every : ∀ leap, ∀ length ∈ monthLengths leap, length ≤ 31 := by decide
        exact every _ length (List.mem_of_getElem? there)

end Calendar

namespace Stamp

open Text (Stops isBlank skipBlank padded ofDigits)

theorem takeWhile_digits {digits rest : List Char} (all : ∀ c ∈ digits, c.isDigit = true)
    (ends : Stops Char.isDigit rest) : (digits ++ rest).takeWhile Char.isDigit = digits := by
  rw [List.takeWhile_append_of_pos all]
  cases rest with
  | nil => simp
  | cons c rest => simp [ends c rfl]

theorem isBlank_of_isDigit {c : Char} (digit : c.isDigit = true) : isBlank c = false := by
  have bounds : 48 ≤ c.toNat ∧ c.toNat ≤ 57 := by
    simp only [Char.isDigit, ge_iff_le, Bool.and_eq_true, decide_eq_true_eq,
      UInt32.le_iff_toNat_le] at digit
    exact digit
  simp only [isBlank, Text.blankRanges, List.any_cons, List.any_nil, Bool.or_false, Bool.or_eq_false_iff,
    Bool.and_eq_false_iff, decide_eq_false_iff_not]
  omega

theorem skipBlank_cons {c : Char} (rest : List Char) (mark : isBlank c = false) :
    skipBlank (c :: rest) = c :: rest := by
  simp [skipBlank, mark]

theorem takeNumber_digits (least most : Nat) {digits : List Char} (rest : List Char)
    (all : ∀ c ∈ digits, c.isDigit = true) (enough : least ≤ digits.length)
    (room : digits.length ≤ most) (ends : Stops Char.isDigit (rest.take (most - digits.length))) :
    takeNumber least most (digits ++ rest) = some (ofDigits digits, rest) := by
  have taken : ((digits ++ rest).take most).takeWhile Char.isDigit = digits := by
    rw [List.take_append, List.take_of_length_le room]
    exact takeWhile_digits all ends
  simp [takeNumber, taken, enough]

theorem padded_begins (width n : Nat) : ∃ c rest, padded width n = c :: rest ∧ c.isDigit = true := by
  obtain ⟨c, rest, begins⟩ := List.exists_cons_of_ne_nil (Text.padded_ne_nil width n)
  exact ⟨c, rest, begins, Text.isDigit_of_mem_padded (by rw [begins]; exact List.mem_cons_self)⟩

theorem skipBlank_padded (width n : Nat) (rest : List Char) :
    skipBlank (padded width n ++ rest) = padded width n ++ rest := by
  obtain ⟨c, tail, begins, digit⟩ := padded_begins width n
  rw [begins]
  exact skipBlank_cons _ (isBlank_of_isDigit digit)

theorem takeNumber_padded (least most width n : Nat) (rest : List Char)
    (enough : least ≤ (padded width n).length) (room : (padded width n).length ≤ most)
    (ends : Stops Char.isDigit (rest.take (most - (padded width n).length))) :
    takeNumber least most (padded width n ++ rest) = some (n, rest) := by
  rw [takeNumber_digits least most rest (fun c => Text.isDigit_of_mem_padded) enough room ends,
    Text.ofDigits_padded]

theorem takeField_padded {n : Nat} (small : n < 100) (rest : List Char) :
    takeField (padded 2 n ++ rest) = some (n, rest) := by
  have length : (padded 2 n).length = 2 := Text.length_padded (by decide) small
  rw [takeField, skipBlank_padded]
  exact takeNumber_padded 1 2 2 n rest (by omega) (by omega) (by simp [length, Text.stops_nil])

theorem takeYear_yearText (year : Int) (rest : List Char) :
    takeYear (Instant.yearText year ++ '-' :: rest) = some (year, '-' :: rest) := by
  unfold Instant.yearText
  split
  · next plain =>
    have length : (padded 4 year.toNat).length = 4 :=
      Text.length_padded (by decide) (show year.toNat < 10000 by omega)
    have taken := takeNumber_padded 1 4 4 year.toNat ('-' :: rest) (by omega) (by omega)
      (by simp [length, Text.stops_nil])
    have value : (year.toNat : Int) = year := by omega
    have skipped := skipBlank_padded 4 year.toNat ('-' :: rest)
    obtain ⟨c, tail, begins, digit⟩ := padded_begins 4 year.toNat
    have unsigned : c ≠ '-' ∧ c ≠ '+' := by
      constructor <;> rintro rfl <;> cases digit
    rw [begins] at taken skipped ⊢
    simp only [List.cons_append] at taken skipped ⊢
    simp [takeYear, skipped, unsigned, taken, value]
  · next signed =>
    have ends : Stops Char.isDigit ('-' :: rest) := Text.stops_cons rest rfl
    have taken := takeNumber_padded 1 (padded 4 year.natAbs ++ '-' :: rest).length 4 year.natAbs
      ('-' :: rest) (List.length_pos_iff.mpr (Text.padded_ne_nil _ _)) (by simp) (by simpa using ends)
    by_cases negative : year < 0
    · have value : -(year.natAbs : Int) = year := by omega
      simp only [negative, if_true, List.cons_append]
      rw [takeYear, skipBlank_cons _ (by rfl)]
      simp only [taken, Option.map_some, value]
    · have value : (year.natAbs : Int) = year := by omega
      simp only [negative, if_false, List.cons_append]
      rw [takeYear, skipBlank_cons _ (by rfl)]
      simp only [taken, Option.map_some, value]

theorem takeFraction_fractionText {n : Nat} (small : n < 1000000000) :
    takeFraction (Instant.fractionText n ++ ['Z']) = some (n, ['Z']) := by
  have general (width m : Nat) (positive : 0 < width) (fits : m < Nat.pow 10 width) (short : width ≤ 9) :
      takeFraction ('.' :: padded width m ++ ['Z']) = some (m * 10 ^ (9 - width), ['Z']) := by
    have length := Text.length_padded positive fits
    have whole : (padded width m ++ ['Z']).takeWhile Char.isDigit = padded width m :=
      takeWhile_digits (fun c => Text.isDigit_of_mem_padded) (Text.stops_cons _ rfl)
    have kept : (padded width m).take 9 = padded width m := List.take_of_length_le (by omega)
    simp [takeFraction, whole, Text.padded_ne_nil, nanoseconds, kept, length, Text.ofDigits_padded]
  unfold Instant.fractionText
  split
  · next none =>
    subst none
    rfl
  · split
    · next millis =>
      rw [general 3 _ (by decide) (show n / 1000000 < 1000 by omega) (by decide)]
      have value : n / 1000000 * 10 ^ (9 - 3) = n := by omega
      rw [value]
    · split
      · rw [general 6 _ (by decide) (show n / 1000 < 1000000 by omega) (by decide)]
        have value : n / 1000 * 10 ^ (9 - 6) = n := by omega
        rw [value]
      · rw [general 9 _ (by decide) small (by decide)]
        simp

end Stamp

namespace Instant

open Stamp

theorem make?_eq_some {day : Int} {second nano : Nat} {t : Instant} :
    make? day second nano = some t ↔ t.day = day ∧ t.second = second ∧ t.nano = nano := by
  constructor
  · intro made
    unfold make? at made
    split at made
    · cases made
      exact ⟨rfl, rfl, rfl⟩
    · cases made
  · rintro ⟨rfl, rfl, rfl⟩
    exact dif_pos ⟨t.firstDay_le, t.le_lastDay, t.second_lt, t.nano_lt⟩

/-- A leap second, if it is one, ends its minute. Only such instants have a text of their own. -/
def IsSettled (t : Instant) : Prop := t.isLeap = true → t.second % 60 = 59

instance (t : Instant) : Decidable t.IsSettled := inferInstanceAs (Decidable (_ → _))

/-- The instant that the text of another one names. A leap second within a minute is written, and read, as
the second after it. -/
def settled (t : Instant) : Instant :=
  if within : t.isLeap = true ∧ t.second % 60 ≠ 59 then
    { t with
      second := t.second + 1
      nano := t.nano - 1000000000
      second_lt := by
        have bound := t.second_lt
        omega
      nano_lt := by
        have bound := t.nano_lt
        omega }
  else t

theorem settled_of_isSettled {t : Instant} (own : t.IsSettled) : t.settled = t :=
  dif_neg fun within => within.2 (own within.1)

theorem fields_settled {t : Instant} (leap : t.isLeap = true) (within : t.second % 60 ≠ 59) :
    t.settled.day = t.day ∧ t.settled.second = t.second + 1 ∧ t.settled.nano = t.nano - 1000000000 := by
  rw [settled, dif_pos ⟨leap, within⟩]
  exact ⟨rfl, rfl, rfl⟩

theorem isSettled_of_not_within {t : Instant} (ends : ¬(t.isLeap = true ∧ t.second % 60 ≠ 59)) :
    t.IsSettled := fun leap => Decidable.not_not.mp fun within => ends ⟨leap, within⟩

theorem isSettled_settled (t : Instant) : t.settled.IsSettled := by
  by_cases within : t.isLeap = true ∧ t.second % 60 ≠ 59
  · have fields := fields_settled within.1 within.2
    have bound := t.nano_lt
    intro leap
    have late : 1000000000 ≤ t.settled.nano := of_decide_eq_true leap
    omega
  · have own := isSettled_of_not_within within
    rwa [settled_of_isSettled own]

theorem settled_eq_iff {t : Instant} : t.settled = t ↔ t.IsSettled := by
  constructor
  · intro same
    rw [← same]
    exact isSettled_settled t
  · exact settled_of_isSettled

def stamp (t : Instant) : Stamp where
  date := Calendar.Date.ofDay t.day
  hour := t.second / 3600
  minute := t.second / 60 % 60
  second := t.second % 60 + if 1000000000 ≤ t.nano then 1 else 0
  fraction := if 1000000000 ≤ t.nano then t.nano - 1000000000 else t.nano
  offset := 0

theorem relaxed?_chars (t : Instant) : relaxed? (t.chars ['Z']) = some t.stamp := by
  have existing := (Calendar.ofDay_spec t.day).1
  have month : (Calendar.Date.ofDay t.day).month < 100 := Nat.lt_of_le_of_lt existing.2.1 (by decide)
  have day : (Calendar.Date.ofDay t.day).day < 100 :=
    Nat.lt_of_le_of_lt (Nat.le_trans existing.2.2.2 (Calendar.daysInMonth_le _ _)) (by decide)
  have hour : t.second / 3600 < 100 := by
    have bound := t.second_lt
    omega
  have minute : t.second / 60 % 60 < 100 := by omega
  have second : (t.second % 60 + if 1000000000 ≤ t.nano then 1 else 0) < 100 := by
    split <;> omega
  have fraction : (if 1000000000 ≤ t.nano then t.nano - 1000000000 else t.nano) < 1000000000 := by
    have bound := t.nano_lt
    split <;> omega
  have dash (rest : List Char) : takeChar '-' (Text.skipBlank ('-' :: rest)) = some rest := rfl
  have colon (rest : List Char) : takeChar ':' (Text.skipBlank (':' :: rest)) = some rest := rfl
  have joint (rest : List Char) : takeOneOf ['T', 't', ' '] ('T' :: rest) = some rest := rfl
  have zone : takeNamedZone (Text.skipBlank ['Z']) = some (0, []) := rfl
  have parts : relaxedStamp (t.chars ['Z']) = some (t.stamp, []) := by
    simp only [relaxedStamp, chars, dateText, timeText, List.append_assoc, List.cons_append,
      takeYear_yearText, dash, takeField_padded month, takeField_padded day, joint,
      takeField_padded hour, colon, takeField_padded minute, takeField_padded second,
      takeFraction_fractionText fraction, zone, Option.bind_eq_bind, Option.bind_some]
    rfl
  rw [relaxed?, parts]
  rfl

theorem stamp_settled (t : Instant) : t.settled.stamp = t.stamp := by
  by_cases within : t.isLeap = true ∧ t.second % 60 ≠ 59
  · obtain ⟨day, second, nano⟩ := fields_settled within.1 within.2
    have late : 1000000000 ≤ t.nano := of_decide_eq_true within.1
    have bound := t.nano_lt
    have regular : ¬1000000000 ≤ t.nano - 1000000000 := by omega
    have hour : (t.second + 1) / 3600 = t.second / 3600 := by omega
    have minute : (t.second + 1) / 60 % 60 = t.second / 60 % 60 := by omega
    have next : (t.second + 1) % 60 = t.second % 60 + 1 := by omega
    simp only [stamp, day, second, nano, late, regular, if_true, if_false, hour, minute, next, Nat.add_zero]
  · rw [settled_of_isSettled (isSettled_of_not_within within)]

theorem instant?_stamp_of_isSettled {t : Instant} (own : t.IsSettled) : t.stamp.instant? = some t := by
  obtain ⟨existing, day⟩ := Calendar.ofDay_spec t.day
  have low := t.firstDay_le
  have high := t.le_lastDay
  have bound := t.second_lt
  have date : t.stamp.date.toDay = t.day := day
  have time : t.stamp.TimeExists := by
    refine ⟨?_, ?_, ?_⟩
    · show t.second / 3600 < 24
      omega
    · show t.second / 60 % 60 < 60
      omega
    · show t.second % 60 + _ ≤ 60
      split <;> omega
  have localSecond : t.stamp.localSecond = t.second := by
    simp only [Stamp.localSecond, stamp]
    split
    · next late =>
      have last := own (decide_eq_true late)
      omega
    · omega
  have nano : t.stamp.nano = t.nano := by
    simp only [Stamp.nano, stamp]
    by_cases late : 1000000000 ≤ t.nano
    · have last := own (decide_eq_true late)
      simp only [late, if_true, last]
      omega
    · have other : t.second % 60 ≠ 60 := by omega
      simp only [late, if_false, Nat.add_zero, other]
  have offset : t.stamp.offset = 0 := rfl
  rw [Stamp.instant?, if_pos ⟨existing, time, date ▸ low, date ▸ high⟩]
  simp only [date, localSecond, nano, offset]
  refine make?_eq_some.mpr ⟨?_, ?_, rfl⟩
  · omega
  · omega

theorem instant?_stamp (t : Instant) : t.stamp.instant? = some t.settled := by
  rw [← stamp_settled]
  exact instant?_stamp_of_isSettled t.isSettled_settled

/-- From its text an instant is read back in its settled form. -/
theorem ofText?_text (t : Instant) : ofText? t.text = some t.settled := by
  rw [ofText?, text, String.toList_ofList, relaxed?_chars]
  exact instant?_stamp t

end Instant

end Coverage
