import Coverage.Proofs.Spelling.Style
/-!
Timestamps as spellings of their fields. A style says how each field may be spelled, and a grammar reads
one field after the other; the strict and the colonless grammar accept exactly the texts of their
styles. What either accepts the relaxed grammar reads as well, and as the same stamp, so no text means
two things.
-/

namespace Coverage.Stamp

open Text (Stops isBlank skipBlank)

/-- How each field of a timestamp may be spelled, and what may stand between date and time. -/
structure Style where
  year : List Char → Int → Prop
  field : List Char → Nat → Prop
  joints : List Char
  zone : List Char → Int → Prop

namespace Style

def strict : Style where
  year piece year := ∃ n : Nat, Numeral 4 4 piece n ∧ year = n
  field := Numeral 2 2
  joints := ['T', 't', ' ']
  zone := ZoneOf Colon

def colonless : Style where
  year := YearOf
  field := Indented (Numeral 1 2)
  joints := ['T']
  zone := Indented (OffsetOf Loose)

def relaxed : Style where
  year := YearOf
  field := Indented (Numeral 1 2)
  joints := ['T', 't', ' ']
  zone := Indented (ZoneOf Loose)

structure Within (narrow wide : Style) : Prop where
  year : ∀ ⦃piece year⦄, narrow.year piece year → wide.year piece year
  field : ∀ ⦃piece n⦄, narrow.field piece n → wide.field piece n
  joints : ∀ c ∈ narrow.joints, c ∈ wide.joints
  zone : ∀ ⦃piece minutes⦄, narrow.zone piece minutes → wide.zone piece minutes

end Style

structure Parts where
  year : List Char
  month : List Char
  day : List Char
  joint : Char
  hour : List Char
  minute : List Char
  second : List Char
  fraction : List Char
  zone : List Char

namespace Parts

def afterYear (p : Parts) : List Char :=
  '-' :: (p.month ++ '-' :: (p.day ++ p.joint :: (p.hour ++ ':' :: (p.minute ++ ':' ::
    (p.second ++ (p.fraction ++ p.zone))))))

def chars (p : Parts) : List Char := p.year ++ p.afterYear

theorem chars_of_zone {p : Parts} {front back : List Char} (same : p.zone = front ++ back) :
    p.chars = { p with zone := front }.chars ++ back := by
  simp [chars, afterYear, same]

end Parts

structure Spells (style : Style) (p : Parts) (s : Stamp) : Prop where
  year : style.year p.year s.date.year
  month : style.field p.month s.date.month
  day : style.field p.day s.date.day
  joint : p.joint ∈ style.joints
  hour : style.field p.hour s.hour
  minute : style.field p.minute s.minute
  second : style.field p.second s.second
  fraction : FractionOf p.fraction s.fraction
  zone : style.zone p.zone s.offset

/-- The text is a timestamp that names the stamp, as the authority may write it. -/
def Written (text : List Char) (s : Stamp) : Prop :=
  ∃ p : Parts, p.chars = text ∧ (Spells .strict p s ∨ Spells .colonless p s)

theorem Spells.respell {narrow : Style} {p : Parts} {s : Stamp} (spells : Spells narrow p s) (wide : Style)
    (field : ∀ ⦃piece n⦄, narrow.field piece n → wide.field piece n) (joint : p.joint ∈ wide.joints)
    {yearPiece zonePiece : List Char} {year offset : Int} (yearSpelled : wide.year yearPiece year)
    (zoneSpelled : wide.zone zonePiece offset) :
    Spells wide { p with year := yearPiece, zone := zonePiece }
      { s with date := { s.date with year }, offset } where
  year := yearSpelled
  month := field spells.month
  day := field spells.day
  joint := joint
  hour := field spells.hour
  minute := field spells.minute
  second := field spells.second
  fraction := spells.fraction
  zone := zoneSpelled

theorem Spells.mono {narrow wide : Style} {p : Parts} {s : Stamp} (spells : Spells narrow p s)
    (within : narrow.Within wide) : Spells wide p s :=
  spells.respell wide within.field (within.joints _ spells.joint) (within.year spells.year)
    (within.zone spells.zone)

theorem yearOf_of_strict {piece : List Char} {year : Int} (strict : Style.strict.year piece year) :
    YearOf piece year := by
  obtain ⟨n, numeral, rfl⟩ := strict
  exact .plain (numeral.mono (by decide) le_rfl)

theorem Style.strict_within_relaxed : Style.strict.Within .relaxed where
  year _ _ := yearOf_of_strict
  field _ _ numeral := indented_of_word (numeral.mono (by decide) le_rfl)
  joints _ member := member
  zone _ _ zone := by
    apply indented_of_word
    cases zone with
    | upper => exact .upper
    | lower => exact .lower
    | offset offset =>
        obtain ⟨signed, hour, apart, minute, hour_lt, minute_lt⟩ := offset
        exact .offset (.mk signed hour (loose_of_colon apart) minute hour_lt minute_lt)

theorem Style.colonless_within_relaxed : Style.colonless.Within .relaxed where
  year _ _ spelled := spelled
  field _ _ numeral := numeral
  joints _ member := by simp [relaxed, List.mem_singleton.mp member]
  zone _ _ offset := offset.mono fun _ _ => .offset

/-- Reads the fields of a timestamp one after the other; a gap may be skipped before a mark. -/
structure Grammar where
  year : List Char → Option (Int × List Char)
  gap : List Char → List Char
  field : List Char → Option (Nat × List Char)
  joints : List Char
  zone : List Char → Option (Int × List Char)

namespace Grammar

def read (g : Grammar) (s : List Char) : Option (Stamp × List Char) := do
  let (year, s) ← g.year s
  let s ← takeChar '-' (g.gap s)
  let (month, s) ← g.field s
  let s ← takeChar '-' (g.gap s)
  let (day, s) ← g.field s
  let s ← takeOneOf g.joints s
  let (hour, s) ← g.field s
  let s ← takeChar ':' (g.gap s)
  let (minute, s) ← g.field s
  let s ← takeChar ':' (g.gap s)
  let (second, s) ← g.field s
  let (nanos, s) ← takeFraction s
  let (offset, s) ← g.zone s
  return (⟨⟨year, month, day⟩, hour, minute, second, nanos, offset⟩, s)

def strict : Grammar where
  year s := (takeNumber 4 4 s).map fun (n, rest) => ((n : Int), rest)
  gap := id
  field := takeNumber 2 2
  joints := ['T', 't', ' ']
  zone := takeZone (takeChar ':')

def colonless : Grammar where
  year := takeYear
  gap := id
  field := takeField
  joints := ['T']
  zone s := takeOffset looseSeparator (skipBlank s)

def relaxed : Grammar where
  year := takeYear
  gap := skipBlank
  field := takeField
  joints := ['T', 't', ' ']
  zone s := (takeNamedZone (skipBlank s)).map fun (offset, rest) => (offset, skipBlank rest)

theorem strictStamp_eq : strictStamp = strict.read := by
  funext s
  simp only [strictStamp, read, strict, Option.bind_eq_bind, Option.bind_map, id]
  rfl

theorem takeChar_eq_takeOneOf (c : Char) : takeChar c = takeOneOf [c] := by
  funext s
  cases s with
  | nil => rfl
  | cons d tail => simp [takeChar, takeOneOf]

theorem colonlessStamp_eq : colonlessStamp = colonless.read := by
  funext s
  simp only [colonlessStamp, read, colonless, takeChar_eq_takeOneOf 'T']
  rfl

theorem relaxedStamp_eq : relaxedStamp = relaxed.read := by
  funext s
  simp only [relaxedStamp, read, relaxed, Option.bind_eq_bind, Option.bind_map]
  rfl

/-- The grammar takes every field that is spelled in this style. -/
structure Takes (g : Grammar) (style : Style) : Prop where
  year : Complete g.year style.year
  gap : ∀ c rest, c = '-' ∨ c = ':' → g.gap (c :: rest) = c :: rest
  field : Complete g.field style.field
  joints : ∀ c ∈ style.joints, c ∈ g.joints ∧ c.isDigit = false
  zone : ∀ ⦃piece minutes⦄, style.zone piece minutes → g.zone piece = some (minutes, [])
  stops : ∀ ⦃piece minutes⦄, style.zone piece minutes → Stops isDecimal piece

/-- Every field that the grammar takes is spelled in this style. -/
structure Keeps (g : Grammar) (style : Style) : Prop where
  year : ∀ ⦃s rest year⦄, skipBlank s = s → g.year s = some (year, rest) →
    ∃ piece, s = piece ++ rest ∧ style.year piece year
  gap : ∀ s, g.gap s = s
  field : Sound g.field style.field
  joints : ∀ c ∈ g.joints, c ∈ style.joints
  zone : Sound g.zone style.zone

variable {g : Grammar} {style : Style}

theorem fraction_lt {s rest : List Char} {stamp : Stamp} (taken : g.read s = some (stamp, rest)) :
    stamp.fraction < 10 ^ 9 := by
  simp only [read, Option.bind_eq_bind, Option.bind_eq_some_iff] at taken
  obtain ⟨_, -, _, -, _, -, _, -, _, -, _, -, _, -, _, -, _, -, _, -, _, -, _, part, _, -, same⟩ := taken
  cases same
  have ⟨_, _, fraction⟩ := sound_takeFraction part
  exact fraction.lt

theorem Takes.mark (takes : g.Takes style) {c : Char} (mark : c = '-' ∨ c = ':') (rest : List Char) :
    takeChar c (g.gap (c :: rest)) = some rest := by
  rw [takes.gap c rest mark]
  exact takeChar_eq_some.mpr rfl

theorem Takes.read (takes : g.Takes style) {p : Parts} {s : Stamp} (spells : Spells style p s) :
    g.read p.chars = some (s, []) := by
  have hyphen (rest : List Char) : Stops Char.isDigit ('-' :: rest) := Text.stops_cons rest rfl
  have colon (rest : List Char) : Stops Char.isDigit (':' :: rest) := Text.stops_cons rest rfl
  have ⟨jointTaken, apart⟩ := takes.joints p.joint spells.joint
  have year : g.year (p.year ++ p.afterYear) = some (s.date.year, p.afterYear) :=
    takes.year spells.year (hyphen _)
  have month (rest : List Char) : g.field (p.month ++ '-' :: rest) = some (s.date.month, '-' :: rest) :=
    takes.field spells.month (hyphen rest)
  have day (rest : List Char) :
      g.field (p.day ++ p.joint :: rest) = some (s.date.day, p.joint :: rest) :=
    takes.field spells.day (Text.stops_cons rest apart)
  have joint (rest : List Char) : takeOneOf g.joints (p.joint :: rest) = some rest :=
    takeOneOf_eq_some.mpr ⟨p.joint, jointTaken, rfl⟩
  have hour (rest : List Char) : g.field (p.hour ++ ':' :: rest) = some (s.hour, ':' :: rest) :=
    takes.field spells.hour (colon rest)
  have minute (rest : List Char) : g.field (p.minute ++ ':' :: rest) = some (s.minute, ':' :: rest) :=
    takes.field spells.minute (colon rest)
  have ends := takes.stops spells.zone
  have second : g.field (p.second ++ (p.fraction ++ p.zone)) = some (s.second, p.fraction ++ p.zone) :=
    takes.field spells.second (spells.fraction.stops (stops_digit ends))
  have fraction : takeFraction (p.fraction ++ p.zone) = some (s.fraction, p.zone) :=
    spells.fraction.take ends
  rw [Grammar.read, Parts.chars, year]
  simp only [Parts.afterYear, takes.mark (.inl rfl), takes.mark (.inr rfl), month, day, joint, hour, minute,
    second, fraction, takes.zone spells.zone, Option.bind_eq_bind, Option.bind_some]
  rfl

theorem Keeps.spells (keeps : g.Keeps style) {text : List Char} {s : Stamp}
    (flush : skipBlank text = text) (taken : g.read text = some (s, [])) :
    ∃ p : Parts, p.chars = text ∧ Spells style p s := by
  obtain ⟨⟨year, afterYear⟩, yearTaken, taken⟩ := Option.bind_eq_some_iff.mp taken
  obtain ⟨beforeMonth, firstMark, taken⟩ := Option.bind_eq_some_iff.mp taken
  obtain ⟨⟨month, afterMonth⟩, monthTaken, taken⟩ := Option.bind_eq_some_iff.mp taken
  obtain ⟨beforeDay, secondMark, taken⟩ := Option.bind_eq_some_iff.mp taken
  obtain ⟨⟨day, afterDay⟩, dayTaken, taken⟩ := Option.bind_eq_some_iff.mp taken
  obtain ⟨beforeHour, jointTaken, taken⟩ := Option.bind_eq_some_iff.mp taken
  obtain ⟨⟨hour, afterHour⟩, hourTaken, taken⟩ := Option.bind_eq_some_iff.mp taken
  obtain ⟨beforeMinute, thirdMark, taken⟩ := Option.bind_eq_some_iff.mp taken
  obtain ⟨⟨minute, afterMinute⟩, minuteTaken, taken⟩ := Option.bind_eq_some_iff.mp taken
  obtain ⟨beforeSecond, fourthMark, taken⟩ := Option.bind_eq_some_iff.mp taken
  obtain ⟨⟨second, afterSecond⟩, secondTaken, taken⟩ := Option.bind_eq_some_iff.mp taken
  obtain ⟨⟨nanos, afterFraction⟩, fractionTaken, taken⟩ := Option.bind_eq_some_iff.mp taken
  obtain ⟨⟨offset, afterZone⟩, zoneTaken, taken⟩ := Option.bind_eq_some_iff.mp taken
  cases taken
  have ⟨yearPiece, yearWhole, yearSpelled⟩ := keeps.year flush yearTaken
  have ⟨monthPiece, monthWhole, monthSpelled⟩ := keeps.field monthTaken
  have ⟨dayPiece, dayWhole, daySpelled⟩ := keeps.field dayTaken
  have ⟨joint, jointMember, jointWhole⟩ := takeOneOf_eq_some.mp jointTaken
  have ⟨hourPiece, hourWhole, hourSpelled⟩ := keeps.field hourTaken
  have ⟨minutePiece, minuteWhole, minuteSpelled⟩ := keeps.field minuteTaken
  have ⟨secondPiece, secondWhole, secondSpelled⟩ := keeps.field secondTaken
  have ⟨fractionPiece, fractionWhole, fractionSpelled⟩ := sound_takeFraction fractionTaken
  have ⟨zonePiece, zoneWhole, zoneSpelled⟩ := keeps.zone zoneTaken
  simp only [keeps.gap, takeChar_eq_some] at firstMark secondMark thirdMark fourthMark
  refine ⟨⟨yearPiece, monthPiece, dayPiece, joint, hourPiece, minutePiece, secondPiece, fractionPiece,
    zonePiece⟩, ?_, yearSpelled, monthSpelled, daySpelled, keeps.joints joint jointMember, hourSpelled,
    minuteSpelled, secondSpelled, fractionSpelled, zoneSpelled⟩
  rw [List.append_nil] at zoneWhole
  simp only [Parts.chars, Parts.afterYear, yearWhole, firstMark, monthWhole, secondMark, dayWhole, jointWhole,
    hourWhole, thirdMark, minuteWhole, fourthMark, secondWhole, fractionWhole, zoneWhole]

theorem complete_strictYear : Complete strict.year Style.strict.year := by
  intro piece year rest spelled ends
  obtain ⟨n, numeral, rfl⟩ := spelled
  exact congrArg (Option.map _) (numeral.take rest fun _ => ends)

theorem complete_takeField : Complete takeField (Indented (Numeral 1 2)) :=
  (complete_takeNumber 1 2).indented (begins_numeral 1 2 (by decide))

theorem sound_takeField : Sound takeField (Indented (Numeral 1 2)) :=
  (sound_takeNumber 1 2).indented

theorem digit_of_joint : ∀ c ∈ ['T', 't', ' '], c.isDigit = false := by
  simp only [List.forall_mem_cons]
  exact ⟨rfl, rfl, rfl, List.forall_mem_nil _⟩

theorem stops_of_indented (kind : List Char → Int → Prop)
    (marked : ∀ ⦃piece a⦄, kind piece a → Stops isDecimal piece)
    {piece : List Char} {a : Int} (indented : Indented kind piece a) : Stops isDecimal piece := by
  obtain ⟨blanks, word, rfl, blank, isKind⟩ := indented
  cases blanks with
  | nil => exact marked isKind
  | cons c tail =>
      apply Text.stops_cons
      have white := blank c List.mem_cons_self
      have notDigit : c.isDigit = false := by
        by_contra digit
        rw [isBlank_of_isDigit (by simpa using digit)] at white
        cases white
      have notPoint : c ≠ '.' := by
        rintro rfl
        exact absurd white (by decide)
      simp [isDecimal, notDigit, notPoint]

theorem stops_offsetOf {kind : List Char → Prop} {piece : List Char} {minutes : Int}
    (offset : OffsetOf kind piece minutes) : Stops isDecimal piece := by
  cases offset with
  | mk signed => cases signed <;> exact Text.stops_cons _ (by decide)

theorem stops_zoneOf {kind : List Char → Prop} {piece : List Char} {minutes : Int}
    (zone : ZoneOf kind piece minutes) : Stops isDecimal piece := by
  cases zone with
  | upper => exact Text.stops_cons _ (by decide)
  | lower => exact Text.stops_cons _ (by decide)
  | offset offset => exact stops_offsetOf offset

theorem strict_takes : strict.Takes .strict where
  year := complete_strictYear
  gap _ _ _ := rfl
  field := complete_takeNumber 2 2
  joints c member := ⟨member, digit_of_joint c member⟩
  zone piece _ zone := by
    have taken := zone.take separates_colon []
    rwa [List.append_nil] at taken
  stops _ _ := stops_zoneOf

theorem strict_keeps : strict.Keeps .strict where
  year _ _ _ _ taken := (sound_takeNumber 4 4).map (fun _ n numeral => ⟨n, numeral, rfl⟩) taken
  gap _ := rfl
  field := sound_takeNumber 2 2
  joints _ member := member
  zone := sound_takeZone separates_colon

theorem complete_looseOffset : Complete colonless.zone Style.colonless.zone :=
  Complete.indented (fun _ _ rest offset _ => offset.take separates_loose rest) (begins_offsetOf Loose)

theorem colonless_takes : colonless.Takes .colonless where
  year := complete_takeYear
  gap _ _ _ := rfl
  field := complete_takeField
  joints c member := ⟨member, digit_of_joint c (Style.colonless_within_relaxed.joints c member)⟩
  zone piece _ zone := by
    have taken := complete_looseOffset zone (Text.stops_nil _)
    rwa [List.append_nil] at taken
  stops _ _ zone := stops_of_indented (OffsetOf Loose) (fun _ _ => stops_offsetOf) zone

theorem colonless_keeps : colonless.Keeps .colonless where
  year _ _ _ := yearOf_of_takeYear
  gap _ := rfl
  field := sound_takeField
  joints _ member := member
  zone := (sound_takeOffset separates_loose).indented

theorem takeNamedZone_of_zoneOf {piece : List Char} {minutes : Int} (zone : ZoneOf Loose piece minutes) :
    takeNamedZone piece = some (minutes, []) := by
  have taken := zone.take separates_loose []
  rw [List.append_nil] at taken
  have unnamed : (piece.take 3).map Char.toUpper ≠ ['U', 'T', 'C'] := by
    cases zone with
    | upper => decide
    | lower => decide
    | offset offset =>
        cases offset with
        | mk signed => cases signed <;> exact fun same => absurd (List.cons.inj same).1 (by decide)
  rw [takeNamedZone, if_neg unnamed, taken]

theorem relaxed_takes : relaxed.Takes .relaxed where
  year := complete_takeYear
  gap c rest mark := by
    have visible : isBlank c = false := by rcases mark with rfl | rfl <;> decide
    exact skipBlank_cons rest visible
  field := complete_takeField
  joints c member := ⟨member, digit_of_joint c member⟩
  zone piece minutes zone := by
    obtain ⟨blanks, word, rfl, blank, isZone⟩ := zone
    have ⟨c, tail, head, mark⟩ := begins_zoneOf Loose isZone
    have skipped : skipBlank (blanks ++ word) = word :=
      skipBlank_append blank (head ▸ Text.stops_cons tail mark)
    simp only [relaxed, skipped, takeNamedZone_of_zoneOf isZone, Option.map_some]
    rfl
  stops _ _ zone := stops_of_indented (ZoneOf Loose) (fun _ _ => stops_zoneOf) zone

end Grammar

theorem whole_eq_some {result : Option (Stamp × List Char)} {s : Stamp} :
    whole result = some s ↔ result = some (s, []) := by
  unfold whole
  split
  · simp
  · next other =>
    simp only [reduceCtorEq, false_iff]
    exact fun same => other s same

variable {text : List Char} {s : Stamp}

theorem fraction_lt_of_relaxed? (taken : relaxed? text = some s) : s.fraction < 10 ^ 9 := by
  rw [relaxed?, whole_eq_some, Grammar.relaxedStamp_eq] at taken
  exact Grammar.fraction_lt taken

theorem strict?_eq_some (flush : skipBlank text = text) :
    strict? text = some s ↔ ∃ p : Parts, p.chars = text ∧ Spells .strict p s := by
  rw [strict?, whole_eq_some, Grammar.strictStamp_eq]
  constructor
  · exact Grammar.strict_keeps.spells flush
  · rintro ⟨p, rfl, spells⟩
    exact Grammar.strict_takes.read spells

theorem colonless?_eq_some (flush : skipBlank text = text) :
    colonless? text = some s ↔ ∃ p : Parts, p.chars = text ∧ Spells .colonless p s := by
  rw [colonless?, whole_eq_some, Grammar.colonlessStamp_eq]
  constructor
  · exact Grammar.colonless_keeps.spells flush
  · rintro ⟨p, rfl, spells⟩
    exact Grammar.colonless_takes.read spells

theorem Spells.relaxed? {p : Parts} (spells : Spells .relaxed p s) : relaxed? p.chars = some s := by
  rw [Stamp.relaxed?, whole_eq_some, Grammar.relaxedStamp_eq]
  exact Grammar.relaxed_takes.read spells

theorem Written.exists_relaxed (written : Written text s) :
    ∃ p : Parts, p.chars = text ∧ Spells .relaxed p s := by
  obtain ⟨p, same, spells | spells⟩ := written
  · exact ⟨p, same, spells.mono Style.strict_within_relaxed⟩
  · exact ⟨p, same, spells.mono Style.colonless_within_relaxed⟩

/-- The relaxed grammar reads what the two others read, and as the same stamp. -/
theorem Written.relaxed? (written : Written text s) : relaxed? text = some s := by
  obtain ⟨p, rfl, spells⟩ := written.exists_relaxed
  exact spells.relaxed?

theorem Written.unique {other : Stamp} (written : Written text s) (also : Written text other) : s = other :=
  Option.some.inj (written.relaxed?.symm.trans also.relaxed?)

end Coverage.Stamp
