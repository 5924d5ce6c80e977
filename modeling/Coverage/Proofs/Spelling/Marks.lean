import Coverage.Proofs.Spelling.Acceptance
/-!
Marks that are to say nothing: a plus sign before the year, and the way in which UTC is written. They do
not count in a year of at most four digits. A longer year is clamped under most marks, but under some it
is read as it stands.
-/

namespace Coverage

namespace Stamp

open Text (isBlank trim)

inductive UtcMark where
  | letter
  | colon
  | plain
  deriving DecidableEq

def UtcMark.text : UtcMark → List Char
  | letter => ['Z']
  | colon => ['+', '0', '0', ':', '0', '0']
  | plain => ['+', '0', '0', '0', '0']

structure Marks where
  plus : Bool
  utc : UtcMark
  deriving DecidableEq

/-- The digits of a year of any length, and blanks at most where the mark of UTC is to stand. -/
def Style.unmarked : Style where
  year piece year := ∃ n : Nat, Numeral 1 piece.length piece n ∧ year = n
  field := Style.relaxed.field
  joints := Style.relaxed.joints
  zone piece minutes := (∀ c ∈ piece, isBlank c = true) ∧ minutes = 0

def Parts.marked (p : Parts) (m : Marks) : Parts :=
  { p with year := if m.plus then '+' :: p.year else p.year, zone := p.zone ++ m.utc.text }

theorem Parts.chars_marked (p : Parts) (m : Marks) : (p.marked m).chars =
    List.replicate m.plus.toNat '+' ++ (p.year ++ (p.marked m).afterYear) := by
  cases sign : m.plus <;> simp [Parts.chars, Parts.marked, sign]

theorem UtcMark.offsetOf {utc : UtcMark} (numeric : utc ≠ .letter) : OffsetOf Loose utc.text 0 := by
  cases utc with
  | letter => exact absurd rfl numeric
  | colon => exact offsetOf_zero (loose_of_colon colon_singleton)
  | plain => exact offsetOf_zero loose_nil

theorem UtcMark.zoneOf (utc : UtcMark) : ZoneOf Loose utc.text 0 := by
  by_cases letter : utc = .letter
  · rw [letter]
    exact .upper
  · exact .offset (offsetOf letter)

namespace Spells

variable {p : Parts} {s : Stamp} (spells : Spells .unmarked p s) (m : Marks)

include spells

theorem digits : ∀ c ∈ p.year, c.isDigit = true := by
  obtain ⟨n, numeral, -⟩ := spells.year
  exact numeral.all

theorem year_ne_nil : p.year ≠ [] := by
  obtain ⟨n, numeral, -⟩ := spells.year
  exact List.ne_nil_of_length_pos numeral.enough

theorem yearOf (fits : m.plus = true ∨ p.year.length ≤ 4) : YearOf (p.marked m).year s.date.year := by
  obtain ⟨n, numeral, same⟩ := spells.year
  rw [same]
  show YearOf (if m.plus then '+' :: p.year else p.year) n
  cases sign : m.plus with
  | true => exact .plus numeral
  | false =>
      have short := fits.resolve_left (by simp [sign])
      exact .plain ⟨numeral.all, numeral.enough, short, numeral.value⟩

theorem zone_marked {kind : List Char → Int → Prop} (utc : kind m.utc.text 0) :
    Indented kind (p.marked m).zone s.offset := by
  obtain ⟨blank, same⟩ := spells.zone
  rw [same]
  exact ⟨p.zone, m.utc.text, rfl, blank, utc⟩

theorem marked (fits : m.plus = true ∨ p.year.length ≤ 4) : Spells .relaxed (p.marked m) s :=
  spells.respell .relaxed (fun _ _ => id) spells.joint (spells.yearOf m fits)
    (spells.zone_marked m m.utc.zoneOf)

theorem marked_colonless (plus : m.plus = true) (numeric : m.utc ≠ .letter) (joint : p.joint = 'T') :
    Spells .colonless (p.marked m) s :=
  spells.respell .colonless (fun _ _ => id) (List.mem_singleton.mpr joint) (spells.yearOf m (.inl plus))
    (spells.zone_marked m (UtcMark.offsetOf numeric))

theorem trim_marked : trim (p.marked m).chars = (p.marked m).chars := by
  have ⟨c, tail, head⟩ := List.exists_cons_of_ne_nil spells.year_ne_nil
  have visible : isBlank c = false := isBlank_of_isDigit (spells.digits c (by simp [head]))
  have begins : ∃ first rest, (p.marked m).chars = first :: rest ∧ isBlank first = false := by
    rw [p.chars_marked]
    cases m.plus with
    | true => exact ⟨'+', _, rfl, rfl⟩
    | false => exact ⟨c, tail ++ (p.marked m).afterYear, by simp [head], visible⟩
  obtain ⟨first, rest, begins, visibleFirst⟩ := begins
  have ⟨init, last, same, visibleLast⟩ := m.utc.zoneOf.ends
  have zone : (p.marked m).zone = (p.zone ++ init) ++ [last] := by
    rw [List.append_assoc, ← same]
    rfl
  have trimmed := Text.trim_surrounded (List.forall_mem_nil _) (List.forall_mem_nil _) begins visibleFirst
    (Parts.chars_of_zone zone) visibleLast
  rwa [List.nil_append, List.append_nil] at trimmed

theorem joint_of_mem (member : 'T' ∈ (p.marked m).chars) : p.joint = 'T' := by
  have digits {piece : List Char} (all : ∀ c ∈ piece, c.isDigit = true) : 'T' ∉ piece :=
    fun inside => absurd (all 'T' inside) (by decide)
  have blanks {piece : List Char} (all : ∀ c ∈ piece, isBlank c = true) : 'T' ∉ piece :=
    fun inside => absurd (all 'T' inside) (by decide)
  have field {piece : List Char} {n : Nat} (spelled : Style.unmarked.field piece n) : 'T' ∉ piece := by
    obtain ⟨before, word, rfl, blank, numeral⟩ := spelled
    exact List.not_mem_append (blanks blank) (digits numeral.all)
  have fraction {piece : List Char} {n : Nat} (spelled : FractionOf piece n) : 'T' ∉ piece := by
    cases spelled with
    | none => exact List.not_mem_nil
    | digits some all => simp [digits all]
  have year : 'T' ∉ (p.marked m).year := by
    show 'T' ∉ if m.plus = true then '+' :: p.year else p.year
    split <;> simp [digits spells.digits]
  have zone : 'T' ∉ (p.marked m).zone := by
    have utc : 'T' ∉ m.utc.text := by cases m.utc <;> decide
    exact List.not_mem_append (blanks spells.zone.1) utc
  simp only [Parts.chars, Parts.afterYear, Parts.marked] at member year zone
  simp [year, zone, field spells.month, field spells.day, field spells.hour, field spells.minute,
    field spells.second, fraction spells.fraction] at member
  exact member.symm

end Spells

theorem Written.length_le {digits rest : List Char} {s : Stamp}
    (written : Written (digits ++ '-' :: rest) s) (all : ∀ c ∈ digits, c.isDigit = true) :
    digits.length ≤ 4 := by
  obtain ⟨q, same, spells⟩ := written.exists_relaxed
  have year : YearOf q.year s.date.year := spells.year
  rw [Parts.chars] at same
  generalize q.year = piece, s.date.year = value at year same
  have unsigned {c : Char} {tail : List Char} (cut : (c :: tail) ++ q.afterYear = digits ++ '-' :: rest)
      (sign : c.isDigit = false) : digits = [] := by
    cases digits with
    | nil => rfl
    | cons d others =>
        have digit := all d List.mem_cons_self
        rw [← (List.cons.inj cut).1, sign] at digit
        cases digit
  cases year with
  | plain numeral =>
      have run := congrArg (List.takeWhile Char.isDigit) same
      rw [Parts.afterYear, takeWhile_digits numeral.all (Text.stops_cons _ rfl),
        takeWhile_digits all (Text.stops_cons _ rfl)] at run
      rw [← run]
      exact numeral.room
  | plus numeral => simp [unsigned same rfl]
  | minus numeral => simp [unsigned same rfl]

/-- The marks under which a year of any length is read as it stands. -/
def Marks.KeepsYear (m : Marks) (p : Parts) : Prop :=
  m.plus = true ∧ m.utc ≠ .letter ∧ p.joint = 'T'

instance (m : Marks) (p : Parts) : Decidable (m.KeepsYear p) := inferInstanceAs (Decidable (_ ∧ _))

theorem Spells.keepsYear_of_written {p : Parts} {s other : Stamp} (spells : Spells .unmarked p s) {m : Marks}
    (long : 4 < p.year.length) (written : Written (p.marked m).chars other) : m.KeepsYear p := by
  have plus : m.plus = true := by
    by_contra unsigned
    have same : (p.marked m).chars = p.year ++ (p.marked m).afterYear := by
      rw [p.chars_marked, Bool.eq_false_iff.mpr unsigned]
      rfl
    rw [same] at written
    exact absurd (written.length_le spells.digits) (by omega)
  have whole : (p.marked m).chars = '+' :: (p.year ++ (p.marked m).afterYear) := by
    rw [p.chars_marked, plus]
    rfl
  obtain ⟨q, same, strict | colonless⟩ := written
  · -- the strict style has no sign
    obtain ⟨n, numeral, -⟩ := strict.year
    obtain ⟨c, tail, head⟩ := List.exists_cons_of_ne_nil
      (List.ne_nil_of_length_pos (Nat.zero_lt_of_lt numeral.enough))
    have digit := numeral.all c (by simp [head])
    rw [whole, Parts.chars, head] at same
    rw [(List.cons.inj same).1] at digit
    cases digit
  · refine ⟨plus, ?_, ?_⟩
    · intro letter
      obtain ⟨blanks, word, zone, -, offset⟩ := colonless.zone
      obtain ⟨init, last, ends, digit⟩ := offset.ends
      have marked : (p.marked m).zone = p.zone ++ ['Z'] := by simp [Parts.marked, letter, UtcMark.text]
      have digits : q.zone = (blanks ++ init) ++ [last] := by rw [zone, ends, List.append_assoc]
      have final := congrArg List.getLast? same
      rw [Parts.chars_of_zone digits, Parts.chars_of_zone marked, List.getLast?_concat,
        List.getLast?_concat] at final
      cases final
      cases digit
    · apply spells.joint_of_mem m
      rw [← same]
      simp [Parts.chars, Parts.afterYear, List.mem_singleton.mp colonless.joint]

end Stamp

namespace Deadline

open Stamp (Marks Parts Spells Style Written)
open Text (trim)

variable {p : Parts} {s : Stamp}

theorem hasLongYear_marked (spells : Spells .unmarked p s) (m : Marks) :
    hasLongYear (p.marked m).chars = decide (4 < p.year.length) := by
  rw [p.chars_marked]
  exact hasLongYear_digits _ spells.year_ne_nil spells.digits _

theorem named_of_short (spells : Spells .unmarked p s) (short : p.year.length ≤ 4) {m : Marks} {raw : String}
    {d : Deadline} (same : trim raw.toList = (p.marked m).chars) (accepted : read raw = .ok d) :
    ∃ t, s.instant? = some t ∧ d = .named t := by
  cases d with
  | named t =>
      have flush := Text.skipBlank_trim raw.toList
      obtain ⟨other, written, named⟩ := (stamp?_eq_some flush).mp (read_named.mp accepted)
      rw [same] at written
      have relaxed := (spells.marked m (.inr short)).relaxed?
      have agree : s = other := Option.some.inj (relaxed.symm.trans written.relaxed?)
      exact ⟨t, agree ▸ named, rfl⟩
  | clamped text =>
      obtain ⟨-, -, long⟩ := read_clamped.mp accepted
      rw [same, hasLongYear_marked spells] at long
      exact absurd (of_decide_eq_true long) (by omega)

theorem stamp?_of_long (spells : Spells .unmarked p s) (long : 4 < p.year.length) (m : Marks) :
    stamp? (p.marked m).chars = if m.KeepsYear p then s.instant? else none := by
  have flush : Text.skipBlank (p.marked m).chars = (p.marked m).chars := by
    rw [← spells.trim_marked m]
    exact Text.skipBlank_trim _
  split
  · next kept =>
    have written : Written (p.marked m).chars s :=
      ⟨_, rfl, .inr (spells.marked_colonless m kept.1 kept.2.1 kept.2.2)⟩
    ext t
    rw [stamp?_eq_some flush]
    constructor
    · rintro ⟨other, also, named⟩
      rwa [written.unique also]
    · exact fun named => ⟨s, written, named⟩
  · next clamped =>
    rw [stamp?_eq_none flush]
    intro other written
    exact absurd (spells.keepsYear_of_written long written) clamped

/-- With a longer year every spelling is accepted, and all but a few are clamped. -/
theorem read_of_long (spells : Spells .unmarked p s) (long : 4 < p.year.length) {m : Marks} {raw : String}
    (same : trim raw.toList = (p.marked m).chars) :
    ∃ d, read raw = .ok d ∧ d.instant = if m.KeepsYear p then s.instant?.getD latest else latest := by
  have counted : hasLongYear (p.marked m).chars = true := by
    rw [hasLongYear_marked spells]
    exact decide_eq_true long
  rw [read_eq, same, stamp?_of_long spells long, if_pos counted]
  by_cases kept : m.KeepsYear p
  · simp only [if_pos kept]
    cases s.instant? with
    | none => exact ⟨_, rfl, rfl⟩
    | some t => exact ⟨_, rfl, rfl⟩
  · simp only [if_neg kept]
    exact ⟨_, rfl, rfl⟩

/-- The marks do not count: whichever spellings are accepted stand for one instant. -/
def ReadAlike (p : Parts) : Prop :=
  ∀ (m other : Marks) (raw otherRaw : String) (d otherD : Deadline),
    trim raw.toList = (p.marked m).chars → trim otherRaw.toList = (p.marked other).chars →
      read raw = .ok d → read otherRaw = .ok otherD → d.instant = otherD.instant

theorem alike_of_long (spells : Spells .unmarked p s) (long : 4 < p.year.length) :
    ReadAlike p ↔ p.joint ≠ 'T' ∨ ∀ t, s.instant? = some t → t = latest := by
  constructor
  · intro alike
    by_cases joint : p.joint = 'T'
    · right
      intro t named
      have trimmed (m : Marks) : trim (String.ofList (p.marked m).chars).toList = (p.marked m).chars := by
        rw [String.toList_ofList]
        exact spells.trim_marked m
      have keeps : Marks.KeepsYear ⟨true, .plain⟩ p := ⟨rfl, by decide, joint⟩
      have clamps : ¬Marks.KeepsYear ⟨false, .letter⟩ p := by simp [Marks.KeepsYear]
      obtain ⟨d, accepted, kept⟩ := read_of_long spells long (trimmed ⟨true, .plain⟩)
      obtain ⟨other, acceptedToo, clamped⟩ := read_of_long spells long (trimmed ⟨false, .letter⟩)
      rw [if_pos keeps, named] at kept
      rw [if_neg clamps] at clamped
      calc
        t = d.instant := kept.symm
        _ = other.instant := alike _ _ _ _ d other (trimmed _) (trimmed _) accepted acceptedToo
        _ = latest := clamped
    · exact .inl joint
  · intro harmless m other raw otherRaw d otherD same sameToo accepted acceptedToo
    have always {m : Marks} {raw : String} {d : Deadline} (same : trim raw.toList = (p.marked m).chars)
        (accepted : read raw = .ok d) : d.instant = latest := by
      obtain ⟨found, acceptedAs, instant⟩ := read_of_long spells long same
      rw [accepted] at acceptedAs
      cases acceptedAs
      rw [instant]
      split
      · next kept =>
        have represented := harmless.resolve_left (not_not_intro kept.2.2)
        cases named : s.instant? with
        | none => rfl
        | some t => exact represented t named
      · rfl
    rw [always same accepted, always sameToo acceptedToo]

/-- When the marks do not count: with a year of at most four digits, and with a longer one only if no
mark lets it stand. In a short year whatever is accepted stands for the stamp; a longer one is always
accepted, and its digits, the joint and the marks together decide whether it is clamped. -/
theorem read_alike_iff (spells : Spells .unmarked p s) :
    (ReadAlike p ↔ p.year.length ≤ 4 ∨ p.joint ≠ 'T' ∨ ∀ t, s.instant? = some t → t = latest) ∧
    ∀ (m : Marks) (raw : String), trim raw.toList = (p.marked m).chars →
      (p.year.length ≤ 4 → ∀ d, read raw = .ok d → ∃ t, s.instant? = some t ∧ d = .named t) ∧
      (4 < p.year.length → ∃ d, read raw = .ok d ∧
        d.instant = if m.KeepsYear p then s.instant?.getD latest else latest) := by
  constructor
  · by_cases short : p.year.length ≤ 4
    · refine ⟨fun _ => .inl short, fun _ => ?_⟩
      intro m other raw otherRaw d otherD same sameToo accepted acceptedToo
      obtain ⟨t, named, rfl⟩ := named_of_short spells short same accepted
      obtain ⟨u, namedToo, rfl⟩ := named_of_short spells short sameToo acceptedToo
      exact Option.some.inj (named.symm.trans namedToo)
    · rw [alike_of_long spells (Nat.lt_of_not_le short)]
      simp [short]
  · intro m raw same
    constructor
    · intro short d accepted
      exact named_of_short spells short same accepted
    · intro long
      exact read_of_long spells long same

def farParts : Parts where
  year := ['2', '0', '0', '0', '0']
  month := ['0', '1']
  day := ['0', '1']
  joint := 'T'
  hour := ['0', '0']
  minute := ['0', '0']
  second := ['0', '0']
  fraction := []
  zone := []

def far : Stamp := ⟨⟨20000, 1, 1⟩, 0, 0, 0, 0, 0⟩

theorem spells_far : Spells .unmarked farParts far := by
  have two {piece : List Char} {n : Nat} (numeral : Stamp.Numeral 1 2 piece n) :
      Style.unmarked.field piece n := Stamp.indented_of_word numeral
  have one : Style.unmarked.field ['0', '1'] 1 := two (Stamp.numeral_of_all rfl (by decide) (by decide) rfl)
  have zero : Style.unmarked.field ['0', '0'] 0 := two (Stamp.numeral_of_all rfl (by decide) (by decide) rfl)
  have year : Stamp.Numeral 1 5 farParts.year 20000 :=
    Stamp.numeral_of_all rfl (by decide) (by decide) rfl
  exact ⟨⟨20000, year, rfl⟩, one, one, List.mem_cons_self, zero, zero, zero, .none, nofun, rfl⟩

theorem read_alike_iff_far :
    ¬ReadAlike farParts ∧ ∃ d, read " 20000-01-01T00:00:00+0000 " = .ok d ∧ d.instant = latest := by
  obtain ⟨alike, reads⟩ := read_alike_iff spells_far
  constructor
  · rw [alike]
    rintro (short | joint | represented)
    · exact absurd short (by decide)
    · exact joint rfl
    · exact absurd (represented _ rfl) (by decide)
  · exact (reads ⟨false, .plain⟩ " 20000-01-01T00:00:00+0000 " rfl).2 (by decide)

/-- One moment, clamped without a plus sign and read as it stands with one. -/
theorem marks_count :
    Spells .unmarked farParts far ∧
    (farParts.marked ⟨false, .letter⟩).chars = "20000-01-01T00:00:00Z".toList ∧
    (farParts.marked ⟨true, .plain⟩).chars = "+20000-01-01T00:00:00+0000".toList ∧
    read "20000-01-01T00:00:00Z" = .ok (.clamped "20000-01-01T00:00:00Z") ∧
    ∃ t, read "+20000-01-01T00:00:00+0000" = .ok (.named t) ∧ far.Names t ∧ latest < t :=
  ⟨spells_far, rfl, rfl, rfl, _, rfl, Stamp.names_of_instant? rfl, by decide⟩

end Deadline

end Coverage
