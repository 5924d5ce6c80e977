import Mathlib.Data.List.DropRight
import Coverage.Instant.Deadline
import Coverage.Proofs.Spelling.Moment
/-!
Which texts are accepted as deadlines, and what becomes of them. A text that is written as a timestamp
names the instant that its fields add up to, however it is spelled and whatever blanks stand around it.
Of the other texts those that begin with a long year are clamped, whatever follows the year, and the rest
is refused.
-/

namespace Coverage

namespace Text

theorem skipBlank_trim (s : List Char) : skipBlank (trim s) = trim s := by
  cases trimmed : trim s with
  | nil => rfl
  | cons c tail =>
      have front : trim s <+: skipBlank s := List.rdropWhile_prefix isBlank (skipBlank s)
      rw [trimmed] at front
      obtain ⟨rest, whole⟩ := front
      have head := List.head?_dropWhile_not isBlank s
      rw [← skipBlank, ← whole] at head
      exact Stamp.skipBlank_cons tail head

theorem trim_surrounded {before text after : List Char} (blankBefore : ∀ c ∈ before, isBlank c = true)
    (blankAfter : ∀ c ∈ after, isBlank c = true) {first last : Char} {init tail : List Char}
    (begins : text = first :: tail) (visibleFirst : isBlank first = false)
    (ends : text = init ++ [last]) (visibleLast : isBlank last = false) :
    trim (before ++ text ++ after) = text := by
  have front : skipBlank (before ++ text ++ after) = text ++ after := by
    rw [List.append_assoc]
    apply Stamp.skipBlank_append blankBefore
    rw [begins]
    exact stops_cons _ visibleFirst
  have blankBack : ∀ c ∈ after.reverse, isBlank c = true := by simpa using blankAfter
  have back : skipBlank (text ++ after).reverse = text.reverse := by
    rw [List.reverse_append]
    apply Stamp.skipBlank_append blankBack
    rw [ends, List.reverse_append]
    exact stops_cons _ visibleLast
  rw [trim, front, back, List.reverse_reverse]

end Text

namespace Stamp

open Text (isBlank skipBlank trim)

variable {text : List Char} {s : Stamp}

theorem Numeral.ends {least most n : Nat} {digits : List Char} (numeral : Numeral least most digits n)
    (positive : 0 < least) : ∃ init last, digits = init ++ [last] ∧ last.isDigit = true := by
  have some : digits ≠ [] := List.ne_nil_of_length_pos (positive.trans_le numeral.enough)
  refine ⟨digits.dropLast, digits.getLast some, (List.dropLast_append_getLast some).symm, ?_⟩
  exact numeral.all _ (List.getLast_mem some)

theorem OffsetOf.ends {kind : List Char → Prop} {piece : List Char} {minutes : Int}
    (offset : OffsetOf kind piece minutes) : ∃ init last, piece = init ++ [last] ∧ last.isDigit = true := by
  cases offset with
  | @mk sign _ hourDigits between _ _ _ _ _ _ minute =>
      have ⟨init, last, same, digit⟩ := minute.ends (by decide)
      refine ⟨sign :: (hourDigits ++ (between ++ init)), last, ?_, digit⟩
      simp [same]

theorem ZoneOf.ends {kind : List Char → Prop} {piece : List Char} {minutes : Int}
    (zone : ZoneOf kind piece minutes) : ∃ init last, piece = init ++ [last] ∧ isBlank last = false := by
  cases zone with
  | upper => exact ⟨[], 'Z', rfl, by decide⟩
  | lower => exact ⟨[], 'z', rfl, by decide⟩
  | offset offset =>
      have ⟨init, last, same, digit⟩ := offset.ends
      exact ⟨init, last, same, isBlank_of_isDigit digit⟩

theorem Written.begins (written : Written text s) :
    ∃ first tail, text = first :: tail ∧ isBlank first = false := by
  obtain ⟨p, rfl, spells⟩ := written.exists_relaxed
  have ⟨first, tail, same, visible⟩ := begins_yearOf spells.year
  exact ⟨first, tail ++ p.afterYear, congrArg (· ++ p.afterYear) same, visible⟩

theorem Written.ends (written : Written text s) :
    ∃ init last, text = init ++ [last] ∧ isBlank last = false := by
  obtain ⟨p, rfl, spells⟩ := written.exists_relaxed
  obtain ⟨blanks, word, same, -, zone⟩ := spells.zone
  have ⟨init, last, zoneEnds, visible⟩ := zone.ends
  exact ⟨_, last, Parts.chars_of_zone (by rw [same, zoneEnds, List.append_assoc]), visible⟩

theorem Written.trim_eq (written : Written text s) {before after : List Char}
    (blankBefore : ∀ c ∈ before, isBlank c = true) (blankAfter : ∀ c ∈ after, isBlank c = true) :
    trim (before ++ text ++ after) = text := by
  have ⟨first, tail, begins, visibleFirst⟩ := written.begins
  have ⟨init, last, ends, visibleLast⟩ := written.ends
  exact Text.trim_surrounded blankBefore blankAfter begins visibleFirst ends visibleLast

theorem Written.flush (written : Written text s) : skipBlank text = text := by
  obtain ⟨first, tail, rfl, visible⟩ := written.begins
  exact skipBlank_cons tail visible

theorem ZoneOf.natAbs_lt {kind : List Char → Prop} {piece : List Char} {minutes : Int}
    (zone : ZoneOf kind piece minutes) : minutes.natAbs < 1440 := by
  cases zone with
  | upper => decide
  | lower => decide
  | offset offset =>
      cases offset with
      | mk signed _ _ _ hour_lt minute_lt => cases signed <;> omega

theorem YearOf.split {piece : List Char} {year : Int} (spelled : YearOf piece year) :
    ∃ sign digits, piece = sign ++ digits ∧ sign ∈ [[], ['+'], ['-']] ∧ digits ≠ [] ∧
      ∀ c ∈ digits, c.isDigit = true := by
  have some {n most : Nat} {digits : List Char} (numeral : Numeral 1 most digits n) : digits ≠ [] :=
    List.ne_nil_of_length_pos numeral.enough
  cases spelled with
  | plain numeral => exact ⟨[], piece, rfl, by simp, some numeral, numeral.all⟩
  | plus numeral => exact ⟨['+'], _, rfl, by simp, some numeral, numeral.all⟩
  | minus numeral => exact ⟨['-'], _, rfl, by simp, some numeral, numeral.all⟩

def inYear (s : Stamp) (year : Int) : Stamp := { s with date := { s.date with year := year } }

theorem Spells.inYear {style : Style} {p : Parts} {piece : List Char} {year : Int}
    (spells : Spells style p s) (spelled : style.year piece year) :
    Spells style { p with year := piece } (s.inYear year) :=
  spells.respell style (fun _ _ => id) spells.joint spelled spells.zone

/-- A leap year has every date that any year has. -/
theorem Written.ordinary_inYear {t : Instant} (written : Written text s) (named : s.instant? = some t) :
    (s.inYear 2000).Ordinary := by
  obtain ⟨⟨firstMonth, lastMonth, firstDay, lastDay⟩, time⟩ := exists_of_instant? named
  obtain ⟨p, -, spells⟩ := written.exists_relaxed
  obtain ⟨_, _, -, -, zone⟩ := spells.zone
  have day := lastDay.trans (Calendar.Date.daysInMonth_le_leap s.date.year lastMonth)
  have low : (0 : Int) ≤ 2000 := by decide
  have high : (2000 : Int) ≤ 9999 := by decide
  exact ⟨⟨firstMonth, lastMonth, firstDay, day⟩, time, low, high, spells.fraction.lt, zone.natAbs_lt⟩

theorem Written.colon_mem (written : Written text s) : ':' ∈ text := by
  obtain ⟨p, rfl, -⟩ := written
  simp [Parts.chars, Parts.afterYear]

end Stamp

namespace Deadline

open Stamp (Written)
open Text (Stops isBlank skipBlank trim)

variable {s : List Char}

theorem stamp?_eq_some {t : Instant} (flush : skipBlank s = s) :
    stamp? s = some t ↔ ∃ stamp, Written s stamp ∧ stamp.instant? = some t := by
  have split : stamp? s = some t ↔ (Stamp.strict? s).bind Stamp.instant? = some t ∨
      (Stamp.strict? s).bind Stamp.instant? = none ∧ (Stamp.colonless? s).bind Stamp.instant? = some t := by
    rw [stamp?]
    cases (Stamp.strict? s).bind Stamp.instant? <;> simp
  constructor
  · intro read
    rcases split.mp read with first | ⟨-, other⟩
    · obtain ⟨stamp, spelled, named⟩ := Option.bind_eq_some_iff.mp first
      obtain ⟨p, same, spells⟩ := (Stamp.strict?_eq_some flush).mp spelled
      exact ⟨stamp, ⟨p, same, .inl spells⟩, named⟩
    · obtain ⟨stamp, spelled, named⟩ := Option.bind_eq_some_iff.mp other
      obtain ⟨p, same, spells⟩ := (Stamp.colonless?_eq_some flush).mp spelled
      exact ⟨stamp, ⟨p, same, .inr spells⟩, named⟩
  · rintro ⟨stamp, written, named⟩
    -- what the strict grammar makes of the text is this stamp too
    have agree : ∀ other, Stamp.strict? s = some other → other = stamp := by
      intro other spelled
      obtain ⟨p, same, spells⟩ := (Stamp.strict?_eq_some flush).mp spelled
      exact Written.unique ⟨p, same, .inl spells⟩ written
    apply split.mpr
    obtain ⟨p, same, spells | spells⟩ := written
    · left
      rw [(Stamp.strict?_eq_some flush).mpr ⟨p, same, spells⟩]
      exact named
    · have second : (Stamp.colonless? s).bind Stamp.instant? = some t := by
        rw [(Stamp.colonless?_eq_some flush).mpr ⟨p, same, spells⟩]
        exact named
      cases first : Stamp.strict? s with
      | none => exact .inr ⟨rfl, second⟩
      | some other =>
          left
          rw [agree other first]
          exact named

def BeginsWithLongYear (s : List Char) : Prop :=
  ∃ pluses digits rest, s = List.replicate pluses '+' ++ (digits ++ '-' :: rest) ∧ 4 < digits.length ∧
    ∀ c ∈ digits, c.isDigit = true

theorem hasLongYear_digits (pluses : Nat) {digits : List Char} (some : digits ≠ [])
    (all : ∀ c ∈ digits, c.isDigit = true) (rest : List Char) :
    hasLongYear (List.replicate pluses '+' ++ (digits ++ '-' :: rest)) = decide (4 < digits.length) := by
  have signs : ∀ c ∈ List.replicate pluses '+', decide (c = '+') = true := by
    intro c member
    exact decide_eq_true (List.eq_of_mem_replicate member)
  have unsigned : (List.replicate pluses '+' ++ (digits ++ '-' :: rest)).dropWhile (· = '+') =
      digits ++ '-' :: rest := by
    rw [List.dropWhile_append_of_pos signs]
    have ⟨c, tail, head⟩ := List.exists_cons_of_ne_nil some
    have digit := all c (by simp [head])
    have other : c ≠ '+' := by
      rintro rfl
      cases digit
    simp [head, other]
  have noHyphen : ∀ c ∈ digits, decide (c ≠ '-') = true := by
    intro c member
    have digit := all c member
    have other : c ≠ '-' := by
      rintro rfl
      cases digit
    exact decide_eq_true other
  have year : (digits ++ '-' :: rest).takeWhile (· ≠ '-') = digits := by
    rw [List.takeWhile_append_of_pos noHyphen]
    simp
  have hyphen : (digits ++ '-' :: rest).contains '-' = true := by simp
  have counted : digits.all Char.isDigit = true := List.all_eq_true.mpr all
  simp only [hasLongYear, unsigned, year, hyphen, counted, Bool.true_and, Bool.and_true]

theorem hasLongYear_iff : hasLongYear s = true ↔ BeginsWithLongYear s := by
  constructor
  · intro long
    simp only [hasLongYear, Bool.and_eq_true, decide_eq_true_eq, List.contains_iff_mem, List.all_eq_true]
      at long
    obtain ⟨⟨hyphen, many⟩, all⟩ := long
    let unsigned := s.dropWhile (· = '+')
    have pluses : s.takeWhile (· = '+') = List.replicate (s.takeWhile (· = '+')).length '+' := by
      apply List.eq_replicate_iff.mpr ⟨rfl, ?_⟩
      intro c member
      simpa using List.mem_takeWhile_imp member
    cases rest : unsigned.dropWhile (· ≠ '-') with
    | nil =>
        have absent := List.dropWhile_eq_nil_iff.mp rest '-' hyphen
        simp at absent
    | cons c tail =>
        have first := List.head?_dropWhile_not (fun c => decide (c ≠ '-')) unsigned
        rw [rest] at first
        have mark : c = '-' := by simpa using first
        refine ⟨(s.takeWhile (· = '+')).length, _, tail, ?_, many, all⟩
        calc
          s = s.takeWhile (· = '+') ++ unsigned := List.takeWhile_append_dropWhile.symm
          _ = List.replicate _ '+' ++ (unsigned.takeWhile (· ≠ '-') ++ unsigned.dropWhile (· ≠ '-')) := by
            have parts : unsigned.takeWhile (· ≠ '-') ++ unsigned.dropWhile (· ≠ '-') = unsigned :=
              List.takeWhile_append_dropWhile
            rw [← pluses, parts]
          _ = _ := by rw [rest, mark]
  · rintro ⟨pluses, digits, rest, rfl, many, all⟩
    rw [hasLongYear_digits pluses (List.ne_nil_of_length_pos (Nat.zero_lt_of_lt many)) all]
    exact decide_eq_true many

/-- The text is not written as a timestamp, or as one whose stamp is no instant. -/
def IsNameless (s : List Char) : Prop := ∀ stamp, Written s stamp → stamp.instant? = none

theorem stamp?_eq_none (flush : skipBlank s = s) : stamp? s = none ↔ IsNameless s := by
  constructor
  · intro none stamp written
    by_contra named
    have ⟨t, same⟩ := Option.ne_none_iff_exists'.mp named
    rw [(stamp?_eq_some flush).mpr ⟨stamp, written, same⟩] at none
    cases none
  · intro nameless
    cases found : stamp? s with
    | none => rfl
    | some t =>
        obtain ⟨stamp, written, named⟩ := (stamp?_eq_some flush).mp found
        rw [nameless stamp written] at named
        cases named

theorem read_eq (raw : String) : read raw =
    match stamp? (trim raw.toList) with
    | some t => .ok (.named t)
    | none => if hasLongYear (trim raw.toList) = true then .ok (.clamped (String.ofList (trim raw.toList)))
      else .error (.notTimestamp (String.ofList (trim raw.toList))) := rfl

theorem read_named {raw : String} {t : Instant} :
    read raw = .ok (.named t) ↔ stamp? (trim raw.toList) = some t := by
  rw [read_eq]
  split
  · next found => simp [found]
  · next none => split <;> simp [none]

theorem read_clamped {raw text : String} :
    read raw = .ok (.clamped text) ↔ String.ofList (trim raw.toList) = text ∧
      stamp? (trim raw.toList) = none ∧ hasLongYear (trim raw.toList) = true := by
  rw [read_eq]
  split
  · next found => simp [found]
  · next none => split <;> simp_all

theorem read_error {raw : String} {fault : Fault} :
    read raw = .error fault ↔ .notTimestamp (String.ofList (trim raw.toList)) = fault ∧
      stamp? (trim raw.toList) = none ∧ ¬hasLongYear (trim raw.toList) = true := by
  rw [read_eq]
  split
  · next found => simp [found]
  · next none => split <;> simp_all

/-- With another year, of four digits, the text is read as an instant. -/
def HasShape (s : List Char) : Prop :=
  ∃ sign year rest other : List Char, s = sign ++ (year ++ rest) ∧ sign ∈ [[], ['+'], ['-']] ∧ year ≠ [] ∧
    (∀ c ∈ year, c.isDigit = true) ∧ Stops Char.isDigit rest ∧
    other.length = 4 ∧ (∀ c ∈ other, c.isDigit = true) ∧ ∃ t, stamp? (other ++ rest) = some t

theorem hasShape_of_written {stamp : Stamp} {t : Instant} (written : Written s stamp)
    (named : stamp.instant? = some t) : HasShape s := by
  have ordinary := written.ordinary_inYear named
  obtain ⟨u, other⟩ := ordinary.exists_instant
  have numeral : Stamp.Numeral 4 4 ['2', '0', '0', '0'] 2000 := Stamp.numeral_of_all rfl le_rfl le_rfl rfl
  obtain ⟨p, rfl, spells⟩ := written
  have again : Written (['2', '0', '0', '0'] ++ p.afterYear) (stamp.inYear 2000) := by
    refine ⟨{ p with year := ['2', '0', '0', '0'] }, rfl, ?_⟩
    rcases spells with strict | colonless
    · exact .inl (strict.inYear ⟨2000, numeral, rfl⟩)
    · exact .inr (colonless.inYear (.plain (numeral.mono (by decide) le_rfl)))
  have year : Stamp.YearOf p.year stamp.date.year := by
    rcases spells with strict | colonless
    · exact Stamp.yearOf_of_strict strict.year
    · exact colonless.year
  obtain ⟨sign, digits, same, isSign, some, all⟩ := year.split
  refine ⟨sign, digits, p.afterYear, ['2', '0', '0', '0'], ?_, isSign, some, all, ?_, rfl, numeral.all, u, ?_⟩
  · rw [Stamp.Parts.chars, same, List.append_assoc]
  · exact Text.stops_cons _ rfl
  · exact (stamp?_eq_some again.flush).mpr ⟨_, again, other⟩

theorem colon_mem_of_hasShape (shape : HasShape s) : ':' ∈ s := by
  obtain ⟨sign, year, rest, other, rfl, -, -, -, -, four, digits, t, read⟩ := shape
  have ⟨c, tail, head⟩ := List.exists_cons_of_length_pos (show 0 < other.length by omega)
  have flush : skipBlank (other ++ rest) = other ++ rest := by
    rw [head]
    exact Stamp.skipBlank_cons _ (Stamp.isBlank_of_isDigit (digits c (by simp [head])))
  obtain ⟨stamp, written, -⟩ := (stamp?_eq_some flush).mp read
  have notDigit : ':' ∉ other := fun member => absurd (digits ':' member) (by decide)
  have inside := (List.mem_append.mp written.colon_mem).resolve_left notDigit
  simp [inside]

/-- What becomes of any text. It names an instant exactly if, blanks around it aside, it is written as a
timestamp whose stamp is that instant; then it has the shape of a timestamp. Of the other texts exactly
those are clamped that begin with a long year, and the rest is refused with its trimmed text. -/
theorem read_accepts (raw : String) :
    (∀ t, read raw = .ok (.named t) ↔
      ∃ stamp, Written (trim raw.toList) stamp ∧ stamp.instant? = some t) ∧
    (∀ text, read raw = .ok (.clamped text) ↔ String.ofList (trim raw.toList) = text ∧
      IsNameless (trim raw.toList) ∧ BeginsWithLongYear (trim raw.toList)) ∧
    (∀ fault, read raw = .error fault ↔ .notTimestamp (String.ofList (trim raw.toList)) = fault ∧
      IsNameless (trim raw.toList) ∧ ¬BeginsWithLongYear (trim raw.toList)) ∧
    ∀ t, read raw = .ok (.named t) → HasShape (trim raw.toList) := by
  have flush := Text.skipBlank_trim raw.toList
  refine ⟨?_, ?_, ?_, ?_⟩
  · intro t
    rw [read_named, stamp?_eq_some flush]
  · intro text
    rw [read_clamped, stamp?_eq_none flush, hasLongYear_iff]
  · intro fault
    rw [read_error, stamp?_eq_none flush, hasLongYear_iff]
  · intro t named
    obtain ⟨stamp, written, same⟩ := (stamp?_eq_some flush).mp (read_named.mp named)
    exact hasShape_of_written written same

def beforeLeapDay : Instant where
  day := 19781
  second := 84723
  nano := 500000000
  firstDay_le := by decide
  le_lastDay := by decide
  second_lt := by decide
  nano_lt := by decide

theorem read_accepts_leap_day :
    read " +02024-2-29T1:2:3.5 +0130 " = .ok (.named beforeLeapDay) ∧
      HasShape (trim " +02024-2-29T1:2:3.5 +0130 ".toList) := by
  have named : read " +02024-2-29T1:2:3.5 +0130 " = .ok (.named beforeLeapDay) := by rfl
  exact ⟨named, (read_accepts _).2.2.2 _ named⟩

/-- A long year is accepted without a timestamp. -/
theorem accepts_no_timestamp :
    read "99999-" = .ok (.clamped "99999-") ∧ ¬HasShape (trim "99999-".toList) := by
  constructor
  · rfl
  · intro shape
    have colon := colon_mem_of_hasShape shape
    exact absurd colon (by decide)

/-- Blanks around a written timestamp do not count, nor does its spelling: its stamp decides. -/
theorem read_written {stamp : Stamp} {t : Instant} {before text after : List Char}
    (blankBefore : ∀ c ∈ before, isBlank c = true) (written : Written text stamp)
    (blankAfter : ∀ c ∈ after, isBlank c = true) (named : stamp.instant? = some t) :
    read (String.ofList (before ++ text ++ after)) = .ok (.named t) := by
  rw [read_named, String.toList_ofList, written.trim_eq blankBefore blankAfter, stamp?_eq_some written.flush]
  exact ⟨stamp, written, named⟩

theorem read_chars {t : Instant} (ordinary : t.stamp.Ordinary) {zone : List Char}
    (utc : Stamp.ZoneOf Stamp.Colon zone 0) :
    read (String.ofList (t.chars zone)) = .ok (.named t.settled) := by
  have written : Written (t.chars zone) t.stamp := Instant.written_chars ordinary utc
  have bare : [] ++ t.chars zone ++ [] = t.chars zone := by rw [List.nil_append, List.append_nil]
  have named := read_written (List.forall_mem_nil _) written (List.forall_mem_nil _) t.instant?_stamp
  rwa [bare] at named

theorem zoneOf_numericUtc : Stamp.ZoneOf Stamp.Colon ['+', '0', '0', ':', '0', '0'] 0 :=
  .offset (Stamp.offsetOf_zero Stamp.colon_singleton)

/-- Timestamps name the right instants. Days are counted from 1970-01-01, one for each date. Every date and
time of a year with four digits, with any offset of less than a day, adds up to one instant, and that is
what is read from it in every spelling, such as those with and without a colon in the offset, and with
any blanks around it. Instants of these years are read back from both of their printed forms if timestamps
name them; the rest are leap seconds within a minute, read back as the second after them. -/
theorem timestamps_name_instants :
    Calendar.Date.toDay ⟨1970, 1, 1⟩ = 0 ∧
    (∀ date : Calendar.Date, date.Exists → date.next.Exists ∧ date.next.toDay = date.toDay + 1) ∧
    (∀ stamp : Stamp, stamp.Ordinary → (∃! t, stamp.Names t) ∧
      Written (stamp.spelled [':']) stamp ∧ Written (stamp.spelled []) stamp ∧
      ∀ t, stamp.Names t → ∀ before text after, (∀ c ∈ before, isBlank c = true) →
        Written text stamp → (∀ c ∈ after, isBlank c = true) →
          read (String.ofList (before ++ text ++ after)) = .ok (.named t)) ∧
    ∀ t : Instant, 0 ≤ (Calendar.Date.ofDay t.day).year → (Calendar.Date.ofDay t.day).year ≤ 9999 →
      read t.text = .ok (.named t.settled) ∧ read t.offsetText = .ok (.named t.settled) ∧
        (t.settled = t ↔ ∃ stamp : Stamp, stamp.Ordinary ∧ stamp.Names t) := by
  refine ⟨rfl, ?_, ?_, ?_⟩
  · intro date existing
    exact ⟨Calendar.Date.exists_next existing, Calendar.Date.toDay_next existing⟩
  · intro stamp ordinary
    obtain ⟨t, named⟩ := ordinary.exists_instant
    have names := Stamp.names_of_instant? named
    refine ⟨⟨t, names, fun other also => also.unique names⟩, ordinary.written_spelled (.inl rfl),
      ordinary.written_spelled (.inr rfl), ?_⟩
    intro other also before text after blankBefore written blankAfter
    rw [also.unique names]
    exact read_written blankBefore written blankAfter named
  · intro t low high
    have ordinary : t.stamp.Ordinary := Instant.ordinary_stamp low high
    exact ⟨read_chars ordinary .upper, read_chars ordinary zoneOf_numericUtc,
      Instant.settled_eq_iff_named ordinary⟩

def leapSecond : Stamp := ⟨⟨2024, 2, 29⟩, 23, 59, 60, 123456789, -330⟩

def leapSecondColon : List Char := "2024-02-29t23:59:60.1234567899-05:30".toList

def leapSecondPlain : List Char := "2024-2-29T23:59:60.1234567899−0530".toList

theorem timestamps_name_instants_leap_second :
    leapSecond.Ordinary ∧ Written leapSecondColon leapSecond ∧ Written leapSecondPlain leapSecond ∧
      ∃ t, leapSecond.Names t ∧
        read (String.ofList ([' '] ++ leapSecondColon ++ ['\n'])) = .ok (.named t) ∧
        read (String.ofList ([] ++ leapSecondPlain ++ ['\u3000'])) = .ok (.named t) ∧
        read latest.text = .ok (.named latest) := by
  obtain ⟨-, -, exact, back⟩ := timestamps_name_instants
  have ordinary : leapSecond.Ordinary := by
    constructor <;> decide
  have colon : Written leapSecondColon leapSecond := by
    have flush : skipBlank leapSecondColon = leapSecondColon := by rfl
    have spelled : Stamp.strict? leapSecondColon = some leapSecond := by rfl
    obtain ⟨p, same, spells⟩ := (Stamp.strict?_eq_some flush).mp spelled
    exact ⟨p, same, .inl spells⟩
  have plain : Written leapSecondPlain leapSecond := by
    have flush : skipBlank leapSecondPlain = leapSecondPlain := by rfl
    have spelled : Stamp.colonless? leapSecondPlain = some leapSecond := by rfl
    obtain ⟨p, same, spells⟩ := (Stamp.colonless?_eq_some flush).mp spelled
    exact ⟨p, same, .inr spells⟩
  obtain ⟨⟨t, names, -⟩, -, -, reads⟩ := exact leapSecond ordinary
  refine ⟨ordinary, colon, plain, t, names, ?_, ?_, ?_⟩
  · exact reads t names _ _ _ (List.all_eq_true.mp rfl) colon (List.all_eq_true.mp rfl)
  · exact reads t names _ _ _ (List.all_eq_true.mp rfl) plain (List.all_eq_true.mp rfl)
  · exact (back latest (by decide) (by decide)).1

end Deadline

end Coverage
