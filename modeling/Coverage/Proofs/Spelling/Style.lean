import Mathlib.Algebra.Group.Nat.Defs
import Mathlib.Data.List.TakeWhile
import Coverage.Proofs.Document.Timestamp
/-!
How the fields of a timestamp may be spelled, said without the readers: which pieces of text a field
may be, and with which value. What a reader takes off the front of a text is such a piece, and such a
piece is taken wherever no further digit follows it.
-/

namespace Coverage

namespace Text

theorem ofDigits_append (high low : List Char) :
    ofDigits (high ++ low) = 10 ^ low.length * ofDigits high + ofDigits low := by
  simp only [ofDigits_eq, Nat.ofDigitChars_append]
  exact Nat.ofDigitChars_eq_ofDigitChars_zero

theorem digitValue_le {c : Char} (digit : c.isDigit = true) : digitValue c ≤ 9 := by
  simp only [Char.isDigit, ge_iff_le, Bool.and_eq_true, decide_eq_true_eq, UInt32.le_iff_toNat_le] at digit
  have high : c.toNat ≤ 57 := digit.2
  show c.toNat - 48 ≤ 9
  omega

theorem ofDigits_lt {digits : List Char} (all : ∀ c ∈ digits, c.isDigit = true) :
    ofDigits digits < 10 ^ digits.length := by
  induction digits with
  | nil => decide
  | cons c rest ih =>
      have ⟨here, later⟩ := List.forall_mem_cons.mp all
      have low := ih later
      have split : ofDigits (c :: rest) = 10 ^ rest.length * digitValue c + ofDigits rest := by
        have single : ofDigits [c] = digitValue c := Nat.zero_add _
        rw [← single]
        exact ofDigits_append [c] rest
      calc
        ofDigits (c :: rest) < 10 ^ rest.length * digitValue c + 10 ^ rest.length := by omega
        _ = 10 ^ rest.length * (digitValue c + 1) := by rw [Nat.mul_add, Nat.mul_one]
        _ ≤ 10 ^ rest.length * 10 := Nat.mul_le_mul_left _ (Nat.succ_le_succ (digitValue_le here))
        _ = 10 ^ (c :: rest).length := by rw [List.length_cons, Nat.pow_succ]

end Text

namespace Stamp

open Text (Stops isBlank skipBlank ofDigits)

/-- A run of digits, of a length within bounds, with its value. -/
structure Numeral (least most : Nat) (digits : List Char) (n : Nat) : Prop where
  all : ∀ c ∈ digits, c.isDigit = true
  enough : least ≤ digits.length
  room : digits.length ≤ most
  value : ofDigits digits = n

def Indented {α : Type} (kind : List Char → α → Prop) (piece : List Char) (a : α) : Prop :=
  ∃ blanks word, piece = blanks ++ word ∧ (∀ c ∈ blanks, isBlank c = true) ∧ kind word a

/-- A year of at most four digits, or one of any length after a sign. -/
inductive YearOf : List Char → Int → Prop where
  | plain {digits : List Char} {n : Nat} (numeral : Numeral 1 4 digits n) : YearOf digits n
  | plus {digits : List Char} {n : Nat} (numeral : Numeral 1 digits.length digits n) :
      YearOf ('+' :: digits) n
  | minus {digits : List Char} {n : Nat} (numeral : Numeral 1 digits.length digits n) :
      YearOf ('-' :: digits) (-n)

inductive FractionOf : List Char → Nat → Prop where
  | none : FractionOf [] 0
  | digits {digits : List Char} (some : digits ≠ []) (all : ∀ c ∈ digits, c.isDigit = true) :
      FractionOf ('.' :: digits) (ofDigits digits * 10 ^ 9 / 10 ^ digits.length)

inductive SignOf : Char → Int → Prop where
  | plus : SignOf '+' 1
  | hyphen : SignOf '-' (-1)
  | minus : SignOf '−' (-1)

inductive OffsetOf (separator : List Char → Prop) : List Char → Int → Prop where
  | mk {sign : Char} {factor : Int} {hourDigits between minuteDigits : List Char} {hours minutes : Nat}
      (signed : SignOf sign factor) (hour : Numeral 2 2 hourDigits hours) (apart : separator between)
      (minute : Numeral 2 2 minuteDigits minutes) (hour_lt : hours < 24) (minute_lt : minutes < 60) :
      OffsetOf separator (sign :: (hourDigits ++ (between ++ minuteDigits)))
        (factor * (hours * 60 + minutes : Nat))

inductive ZoneOf (separator : List Char → Prop) : List Char → Int → Prop where
  | upper : ZoneOf separator ['Z'] 0
  | lower : ZoneOf separator ['z'] 0
  | offset {piece : List Char} {minutes : Int} (offset : OffsetOf separator piece minutes) :
      ZoneOf separator piece minutes

def Colon (between : List Char) : Prop := between = [':']

def Loose (between : List Char) : Prop := ∀ c ∈ between, c = ':' ∨ isBlank c = true

theorem colon_singleton : Colon [':'] := rfl

theorem loose_nil : Loose [] := List.forall_mem_nil _

theorem loose_of_colon {between : List Char} (colon : Colon between) : Loose between := by
  rw [colon]
  simp [Loose]

section Readers

variable {α β : Type}

/-- Whatever the reader takes off a text is a piece of this kind. -/
def Sound (take : List Char → Option (α × List Char)) (kind : List Char → α → Prop) : Prop :=
  ∀ ⦃s : List Char⦄ ⦃a : α⦄ ⦃rest : List Char⦄, take s = some (a, rest) →
    ∃ piece, s = piece ++ rest ∧ kind piece a

/-- A piece of this kind is taken if no digit follows it. -/
def Complete (take : List Char → Option (α × List Char)) (kind : List Char → α → Prop) : Prop :=
  ∀ ⦃piece : List Char⦄ ⦃a : α⦄ ⦃rest : List Char⦄, kind piece a → Stops Char.isDigit rest →
    take (piece ++ rest) = some (a, rest)

def Begins (kind : List Char → α → Prop) : Prop :=
  ∀ ⦃piece : List Char⦄ ⦃a : α⦄, kind piece a → ∃ c tail, piece = c :: tail ∧ isBlank c = false

theorem skipBlank_append {blanks word : List Char} (blank : ∀ c ∈ blanks, isBlank c = true)
    (stops : Stops isBlank word) : skipBlank (blanks ++ word) = word := by
  rw [skipBlank, List.dropWhile_append_of_pos blank]
  cases word with
  | nil => rfl
  | cons c tail => exact skipBlank_cons tail (stops c rfl)

theorem exists_blanks (s : List Char) :
    ∃ blanks, s = blanks ++ skipBlank s ∧ ∀ c ∈ blanks, isBlank c = true :=
  ⟨s.takeWhile isBlank, List.takeWhile_append_dropWhile.symm, fun _ => List.mem_takeWhile_imp⟩

variable {take : List Char → Option (α × List Char)} {kind : List Char → α → Prop}

theorem Sound.indented (sound : Sound take kind) :
    Sound (fun s => take (skipBlank s)) (Indented kind) := by
  intro s a rest taken
  have ⟨word, same, isKind⟩ := sound taken
  have ⟨blanks, whole, blank⟩ := exists_blanks s
  refine ⟨blanks ++ word, ?_, blanks, word, rfl, blank, isKind⟩
  rw [List.append_assoc, ← same]
  exact whole

theorem Complete.indented (complete : Complete take kind) (begins : Begins kind) :
    Complete (fun s => take (skipBlank s)) (Indented kind) := by
  intro piece a rest isIndented ends
  obtain ⟨blanks, word, rfl, blank, isKind⟩ := isIndented
  have ⟨c, tail, head, mark⟩ := begins isKind
  have stops : Stops isBlank (word ++ rest) := by
    rw [head]
    exact Text.stops_cons _ mark
  have skipped : skipBlank (blanks ++ word ++ rest) = word ++ rest := by
    rw [List.append_assoc, skipBlank_append blank stops]
  show take (skipBlank (blanks ++ word ++ rest)) = some (a, rest)
  rw [skipped]
  exact complete isKind ends

theorem Sound.map (sound : Sound take kind) {f : α → β} {kind' : List Char → β → Prop}
    (goes : ∀ ⦃piece a⦄, kind piece a → kind' piece (f a)) :
    Sound (fun s => (take s).map fun (a, rest) => (f a, rest)) kind' := by
  intro s b rest taken
  obtain ⟨⟨a, rest'⟩, here, same⟩ := Option.map_eq_some_iff.mp taken
  cases same
  have ⟨piece, whole, isKind⟩ := sound here
  exact ⟨piece, whole, goes isKind⟩

theorem Indented.mono {kind' : List Char → α → Prop} (wide : ∀ ⦃piece a⦄, kind piece a → kind' piece a)
    {piece : List Char} {a : α} (indented : Indented kind piece a) : Indented kind' piece a := by
  obtain ⟨blanks, word, same, blank, isKind⟩ := indented
  exact ⟨blanks, word, same, blank, wide isKind⟩

theorem indented_of_word {word : List Char} {a : α} (isKind : kind word a) : Indented kind word a :=
  ⟨[], word, rfl, nofun, isKind⟩

end Readers

section Numerals

variable {least most n : Nat} {digits : List Char}

theorem numeral_of_all (all : digits.all Char.isDigit = true) (enough : least ≤ digits.length)
    (room : digits.length ≤ most) (value : ofDigits digits = n) : Numeral least most digits n :=
  ⟨List.all_eq_true.mp all, enough, room, value⟩

theorem sound_takeNumber (least most : Nat) : Sound (takeNumber least most) (Numeral least most) := by
  intro s n rest taken
  simp only [takeNumber] at taken
  split at taken
  · next enough =>
    cases taken
    have front : (s.take most).takeWhile Char.isDigit <+: s :=
      (List.takeWhile_prefix _).trans (List.take_prefix most s)
    refine ⟨_, (List.prefix_iff_eq_append.mp front).symm, fun c => List.mem_takeWhile_imp, enough, ?_, rfl⟩
    calc
      _ ≤ (s.take most).length := (List.takeWhile_prefix _).length_le
      _ ≤ most := List.length_take_le most s
  · cases taken

/-- No digit may follow, unless as many as possible are taken. -/
theorem Numeral.take (numeral : Numeral least most digits n) (rest : List Char)
    (ends : digits.length < most → Stops Char.isDigit rest) :
    takeNumber least most (digits ++ rest) = some (n, rest) := by
  have stops : Stops Char.isDigit (rest.take (most - digits.length)) := by
    intro c first
    cases rest with
    | nil => simp at first
    | cons d tail =>
        have left : most - digits.length ≠ 0 := by
          intro none
          rw [none] at first
          cases first
        have head : d = c := by simpa [List.head?_take, left] using first
        exact ends (by omega) c (by simp [head])
  rw [takeNumber_digits least most rest numeral.all numeral.enough numeral.room stops, numeral.value]

theorem complete_takeNumber (least most : Nat) :
    Complete (takeNumber least most) (Numeral least most) :=
  fun _ _ _ numeral ends => numeral.take _ fun _ => ends

theorem Numeral.mono (numeral : Numeral least most digits n) {least' most' : Nat} (fewer : least' ≤ least)
    (more : most ≤ most') : Numeral least' most' digits n :=
  ⟨numeral.all, fewer.trans numeral.enough, numeral.room.trans more, numeral.value⟩

theorem Numeral.free (numeral : Numeral least most digits n) : Numeral least digits.length digits n :=
  ⟨numeral.all, numeral.enough, le_rfl, numeral.value⟩

theorem begins_numeral (least most : Nat) (positive : 0 < least) : Begins (Numeral least most) := by
  intro digits n numeral
  have some : digits ≠ [] := List.ne_nil_of_length_pos (positive.trans_le numeral.enough)
  have ⟨c, tail, head⟩ := List.exists_cons_of_ne_nil some
  exact ⟨c, tail, head, isBlank_of_isDigit (numeral.all c (by simp [head]))⟩

end Numerals

theorem begins_yearOf : Begins YearOf := by
  intro piece year spelled
  cases spelled with
  | plain numeral => exact begins_numeral 1 4 (by decide) numeral
  | plus numeral => exact ⟨'+', _, rfl, rfl⟩
  | minus numeral => exact ⟨'-', _, rfl, rfl⟩

theorem yearOf_of_takeYear {s rest : List Char} {year : Int} (flush : skipBlank s = s)
    (taken : takeYear s = some (year, rest)) : ∃ piece, s = piece ++ rest ∧ YearOf piece year := by
  have counted {tail : List Char} {m : Nat}
      (here : takeNumber 1 tail.length tail = some (m, rest)) :
      ∃ digits, tail = digits ++ rest ∧ Numeral 1 digits.length digits m := by
    obtain ⟨digits, whole, numeral⟩ := sound_takeNumber 1 tail.length here
    exact ⟨digits, whole, numeral.free⟩
  rw [takeYear, flush] at taken
  split at taken
  · obtain ⟨⟨m, _⟩, here, same⟩ := Option.map_eq_some_iff.mp taken
    cases same
    obtain ⟨digits, whole, numeral⟩ := counted here
    exact ⟨'-' :: digits, by simp [whole], .minus numeral⟩
  · obtain ⟨⟨m, _⟩, here, same⟩ := Option.map_eq_some_iff.mp taken
    cases same
    obtain ⟨digits, whole, numeral⟩ := counted here
    exact ⟨'+' :: digits, by simp [whole], .plus numeral⟩
  · exact (sound_takeNumber 1 4).map (fun _ _ => .plain) taken

theorem complete_takeYear : Complete takeYear YearOf := by
  intro piece year rest spelled ends
  have ⟨c, tail, head, mark⟩ := begins_yearOf spelled
  have flush : skipBlank (piece ++ rest) = piece ++ rest := by
    rw [head]
    exact skipBlank_cons _ mark
  rw [takeYear, flush]
  have counted {digits : List Char} {m : Nat} (numeral : Numeral 1 digits.length digits m) :
      takeNumber 1 (digits ++ rest).length (digits ++ rest) = some (m, rest) :=
    (numeral.mono le_rfl (by simp)).take rest fun _ => ends
  cases spelled with
  | plain numeral =>
      have unsigned : c ≠ '-' ∧ c ≠ '+' := by
        have digit := numeral.all c (by simp [head])
        constructor <;> rintro rfl <;> cases digit
      have taken := numeral.take rest fun _ => ends
      rw [head, List.cons_append] at taken ⊢
      split
      · next same => exact absurd (List.cons.inj same).1 unsigned.1
      · next same => exact absurd (List.cons.inj same).1 unsigned.2
      · rw [taken]
        rfl
  | plus numeral =>
      simp only [List.cons_append, counted numeral, Option.map_some]
  | minus numeral =>
      simp only [List.cons_append, counted numeral, Option.map_some]

section Fractions

/-- The digits after the ninth are those of the part that is cut off. -/
theorem nanoseconds_eq {digits : List Char} (all : ∀ c ∈ digits, c.isDigit = true) :
    nanoseconds digits = ofDigits digits * 10 ^ 9 / 10 ^ digits.length := by
  by_cases short : digits.length ≤ 9
  · have kept : digits.take 9 = digits := List.take_of_length_le short
    have scale : 10 ^ (9 - digits.length) * 10 ^ digits.length = 10 ^ 9 := by
      rw [← Nat.pow_add, Nat.sub_add_cancel short]
    have positive : 0 < 10 ^ digits.length := Nat.pow_pos (by decide)
    calc
      nanoseconds digits = ofDigits digits * 10 ^ (9 - digits.length) := by
        rw [nanoseconds, kept]
        rfl
      _ = ofDigits digits * 10 ^ (9 - digits.length) * 10 ^ digits.length / 10 ^ digits.length :=
        (Nat.mul_div_cancel _ positive).symm
      _ = ofDigits digits * 10 ^ 9 / 10 ^ digits.length := by rw [Nat.mul_assoc, scale]
  · have length : (digits.take 9).length = 9 := List.length_take_of_le (by omega)
    have dropped : (digits.drop 9).length = digits.length - 9 := List.length_drop
    have low : ofDigits (digits.drop 9) < 10 ^ (digits.length - 9) := by
      rw [← dropped]
      exact Text.ofDigits_lt fun c member => all c (List.mem_of_mem_drop member)
    have whole : ofDigits digits =
        10 ^ (digits.length - 9) * ofDigits (digits.take 9) + ofDigits (digits.drop 9) := by
      rw [← dropped, ← Text.ofDigits_append, List.take_append_drop]
    have scale : 10 ^ (digits.length - 9) * 10 ^ 9 = 10 ^ digits.length := by
      rw [← Nat.pow_add, Nat.sub_add_cancel (by omega)]
    have positive : 0 < 10 ^ (digits.length - 9) := Nat.pow_pos (by decide)
    calc
      nanoseconds digits = ofDigits (digits.take 9) := by
        rw [nanoseconds, length]
        exact Nat.mul_one _
      _ = ofDigits digits / 10 ^ (digits.length - 9) := by
        rw [whole, Nat.mul_add_div positive, Nat.div_eq_of_lt low, Nat.add_zero]
      _ = ofDigits digits * 10 ^ 9 / (10 ^ (digits.length - 9) * 10 ^ 9) :=
        (Nat.mul_div_mul_right _ _ (by decide)).symm
      _ = ofDigits digits * 10 ^ 9 / 10 ^ digits.length := by rw [scale]

theorem FractionOf.lt {piece : List Char} {n : Nat} (fraction : FractionOf piece n) : n < 10 ^ 9 := by
  cases fraction with
  | none => decide
  | @digits digits some all =>
      have bound := Nat.mul_lt_mul_of_pos_right (Text.ofDigits_lt all) (show 0 < 10 ^ 9 by decide)
      exact Nat.div_lt_of_lt_mul bound

theorem sound_takeFraction : Sound takeFraction FractionOf := by
  intro s n rest taken
  unfold takeFraction at taken
  split at taken
  · next tail =>
    simp only at taken
    split at taken
    · cases taken
    · next some =>
      have all : ∀ c ∈ tail.takeWhile Char.isDigit, c.isDigit = true := fun c => List.mem_takeWhile_imp
      have front := List.prefix_iff_eq_append.mp (List.takeWhile_prefix (l := tail) Char.isDigit)
      cases taken
      rw [nanoseconds_eq all]
      exact ⟨'.' :: _, congrArg ('.' :: ·) front.symm, .digits (by simpa using some) all⟩
  · cases taken
    exact ⟨[], rfl, .none⟩

def isDecimal (c : Char) : Bool := c.isDigit || c = '.'

theorem stops_digit {rest : List Char} (ends : Stops isDecimal rest) : Stops Char.isDigit rest :=
  fun c first => (Bool.or_eq_false_iff.mp (ends c first)).1

theorem FractionOf.take {piece rest : List Char} {n : Nat} (fraction : FractionOf piece n)
    (ends : Stops isDecimal rest) : takeFraction (piece ++ rest) = some (n, rest) := by
  cases fraction with
  | none =>
      rw [List.nil_append]
      unfold takeFraction
      split
      · exact absurd (ends '.' rfl) (by decide)
      · rfl
  | @digits digits some all =>
      have run : (digits ++ rest).takeWhile Char.isDigit = digits :=
        takeWhile_digits all (stops_digit ends)
      simp [takeFraction, run, some, nanoseconds_eq all]

theorem FractionOf.stops {piece rest : List Char} {n : Nat} (fraction : FractionOf piece n)
    (ends : Stops Char.isDigit rest) : Stops Char.isDigit (piece ++ rest) := by
  cases fraction with
  | none => exact ends
  | digits some all => exact Text.stops_cons _ rfl

end Fractions

section Zones

variable {separator : List Char → Option (List Char)} {kind : List Char → Prop}

/-- What a separator takes is of this kind, and it is taken if digits follow. -/
structure Separates (separator : List Char → Option (List Char)) (kind : List Char → Prop) : Prop where
  sound : ∀ {s rest : List Char}, separator s = some rest → ∃ between, s = between ++ rest ∧ kind between
  complete : ∀ {between rest : List Char} {c : Char}, kind between → c.isDigit = true →
    separator (between ++ c :: rest) = some (c :: rest)

theorem takeChar_eq_some {c : Char} {s rest : List Char} :
    takeChar c s = some rest ↔ s = c :: rest := by
  cases s with
  | nil => simp [takeChar]
  | cons d tail =>
      by_cases same : d = c
      · simp [takeChar, same]
      · simp [takeChar, same]

theorem takeOneOf_eq_some {cs s rest : List Char} :
    takeOneOf cs s = some rest ↔ ∃ c ∈ cs, s = c :: rest := by
  cases s with
  | nil => simp [takeOneOf]
  | cons d tail =>
      by_cases member : d ∈ cs
      · simp [takeOneOf, member]
      · simp only [takeOneOf, if_neg member, false_iff, reduceCtorEq]
        rintro ⟨c, inside, same⟩
        exact member ((List.cons.inj same).1 ▸ inside)

theorem separates_colon : Separates (takeChar ':') Colon where
  sound taken := ⟨[':'], takeChar_eq_some.mp taken, rfl⟩
  complete between _ := takeChar_eq_some.mpr (congrArg (· ++ _) between)

theorem separates_loose : Separates looseSeparator Loose where
  sound {s rest} taken := by
    cases taken
    refine ⟨_, List.takeWhile_append_dropWhile.symm, ?_⟩
    intro c member
    simpa using List.mem_takeWhile_imp member
  complete {between rest c} loose digit := by
    have others : ∀ d ∈ between, (decide (d = ':') || isBlank d) = true := by simpa [Loose] using loose
    have apart : c ≠ ':' := by
      rintro rfl
      cases digit
    have stop : (decide (c = ':') || isBlank c) = false := by simp [apart, isBlank_of_isDigit digit]
    rw [looseSeparator, List.dropWhile_append_of_pos others, List.dropWhile_cons, stop]
    rfl

theorem offsetOf_zero {between : List Char} (apart : kind between) :
    OffsetOf kind ('+' :: (['0', '0'] ++ (between ++ ['0', '0']))) 0 := by
  have zeros : Numeral 2 2 ['0', '0'] 0 := numeral_of_all rfl le_rfl le_rfl rfl
  exact .mk .plus zeros apart zeros (by decide) (by decide)

theorem begins_offsetOf (kind : List Char → Prop) : Begins (OffsetOf kind) := by
  intro piece minutes offset
  cases offset with
  | @mk sign _ _ _ _ _ _ signed =>
      refine ⟨sign, _, rfl, ?_⟩
      cases signed <;> decide

theorem begins_zoneOf (kind : List Char → Prop) : Begins (ZoneOf kind) := by
  intro piece minutes zone
  cases zone with
  | upper => exact ⟨'Z', [], rfl, by decide⟩
  | lower => exact ⟨'z', [], rfl, by decide⟩
  | offset offset => exact begins_offsetOf kind offset

def takeHoursAndMinutes (separator : List Char → Option (List Char)) (factor : Int) (s : List Char) :
    Option (Int × List Char) :=
  (takeNumber 2 2 s).bind fun (hours, s) => (separator s).bind fun s =>
    (takeNumber 2 2 s).bind fun (minutes, s) =>
      if minutes < 60 ∧ hours < 24 then some (factor * (hours * 60 + minutes : Nat), s) else none

theorem SignOf.takeOffset_eq {sign : Char} {factor : Int} (signed : SignOf sign factor) (s : List Char) :
    takeOffset separator (sign :: s) = takeHoursAndMinutes separator factor s := by
  cases signed <;> rfl

theorem signOf_of_takeOffset {s : List Char} {result : Int × List Char}
    (taken : takeOffset separator s = some result) :
    ∃ sign factor tail, s = sign :: tail ∧ SignOf sign factor := by
  unfold takeOffset at taken
  split at taken
  · exact ⟨'+', 1, _, rfl, .plus⟩
  · exact ⟨'-', -1, _, rfl, .hyphen⟩
  · exact ⟨'−', -1, _, rfl, .minus⟩
  · cases taken

theorem sound_takeOffset (separates : Separates separator kind) :
    Sound (takeOffset separator) (OffsetOf kind) := by
  intro s minutes rest taken
  obtain ⟨sign, factor, tail, rfl, signed⟩ := signOf_of_takeOffset taken
  rw [signed.takeOffset_eq] at taken
  obtain ⟨⟨hours, afterHours⟩, hour, taken⟩ := Option.bind_eq_some_iff.mp taken
  obtain ⟨afterSeparator, apart, taken⟩ := Option.bind_eq_some_iff.mp taken
  obtain ⟨⟨minute, afterMinutes⟩, last, taken⟩ := Option.bind_eq_some_iff.mp taken
  have ⟨hourDigits, hourWhole, hourNumeral⟩ := sound_takeNumber 2 2 hour
  have ⟨between, betweenWhole, isBetween⟩ := separates.sound apart
  have ⟨minuteDigits, minuteWhole, minuteNumeral⟩ := sound_takeNumber 2 2 last
  simp only at taken
  split at taken
  · next bounds =>
    cases taken
    refine ⟨_, ?_, .mk signed hourNumeral isBetween minuteNumeral bounds.2 bounds.1⟩
    simp [hourWhole, betweenWhole, minuteWhole]
  · cases taken

theorem OffsetOf.take (separates : Separates separator kind) {piece : List Char} {minutes : Int}
    (offset : OffsetOf kind piece minutes) (rest : List Char) :
    takeOffset separator (piece ++ rest) = some (minutes, rest) := by
  cases offset with
  | @mk sign factor hourDigits between minuteDigits hours minutes signed hour apart minute hour_lt
      minute_lt =>
      have hourTaken (later : List Char) :
          takeNumber 2 2 (hourDigits ++ later) = some (hours, later) :=
        hour.take later fun short => absurd hour.enough (by omega)
      have minuteTaken : takeNumber 2 2 (minuteDigits ++ rest) = some (minutes, rest) :=
        minute.take rest fun short => absurd minute.enough (by omega)
      have ⟨c, tail, head⟩ := List.exists_cons_of_ne_nil
        (List.ne_nil_of_length_pos (Nat.zero_lt_two.trans_le minute.enough))
      have separated : separator (between ++ (minuteDigits ++ rest)) = some (minuteDigits ++ rest) := by
        rw [head]
        exact separates.complete apart (minute.all c (by simp [head]))
      rw [List.cons_append, signed.takeOffset_eq]
      simp [takeHoursAndMinutes, hourTaken, separated, minuteTaken, hour_lt, minute_lt]

theorem sound_takeZone (separates : Separates separator kind) :
    Sound (takeZone separator) (ZoneOf kind) := by
  intro s minutes rest taken
  unfold takeZone at taken
  split at taken
  · cases taken
    exact ⟨['Z'], rfl, .upper⟩
  · cases taken
    exact ⟨['z'], rfl, .lower⟩
  · have ⟨piece, whole, offset⟩ := sound_takeOffset separates taken
    exact ⟨piece, whole, .offset offset⟩

theorem ZoneOf.take (separates : Separates separator kind) {piece : List Char} {minutes : Int}
    (zone : ZoneOf kind piece minutes) (rest : List Char) :
    takeZone separator (piece ++ rest) = some (minutes, rest) := by
  cases zone with
  | upper => rfl
  | lower => rfl
  | offset offset =>
      have taken := offset.take separates rest
      cases offset with
      | mk signed => cases signed <;> exact taken

end Zones

end Stamp

end Coverage
