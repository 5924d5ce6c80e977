import Coverage.Proofs.Classification
import Coverage.Proofs.Document.Stable
/-!
The phases of a window. An instant comes before a window, lies in it or comes after it, and is in just one
of these phases unless the window closes before it opens. A window that is made does not; one that is read
may, for reading keeps whatever two instants a document names.
-/

namespace Coverage

theorem Instant.lt_of_le_of_lt {a b c : Instant} (first : a ≤ b) (later : b < c) : a < c := by
  simp only [le_iff_not_lt, lt_iff] at *
  omega

namespace Window

open Assessment (midnight)

variable {w : Window}

def phases (w : Window) (t : Instant) : List Bool := [w.startsAfter t, w.contains t, w.endedBefore t]

/-- The ways to come by a window. -/
inductive Arises : Window → Prop where
  | made {opens closes : Instant} {w : Window} (made : make opens closes = .ok w) : Arises w
  | read {text : String} {w : Window} (read : reader.parse text = some w) : Arises w
  | certified {text : String} {c : Certificate} (read : Certificate.reader.parse text = some c) :
      Arises c.window

theorem make_eq_ok {opens closes : Instant} :
    make opens closes = .ok w ↔ opens ≤ closes ∧ w = ⟨opens, closes⟩ := by
  rw [Instant.le_iff_not_lt, make]
  split
  · next inverted => simp [inverted]
  · next ordered => simp [ordered, eq_comm]

theorem count_phases (w : Window) (t : Instant) :
    (w.phases t).count true = if w.closes ≤ t ∧ t < w.opens then 2 else 1 := by
  simp only [phases, startsAfter, contains, endedBefore, Instant.le_iff_not_lt]
  by_cases early : t < w.opens
  · by_cases closing : t < w.closes
    · simp [early, closing]
    · simp [early, closing]
  · by_cases closing : t < w.closes
    · simp [early, closing]
    · simp [early, closing]

/-- The close itself tells whether a window is ordered. -/
theorem once_iff_ordered : (∀ t, (w.phases t).count true = 1) ↔ w.opens ≤ w.closes := by
  simp only [count_phases, ite_eq_right_iff]
  constructor
  · intro once inverted
    have reached : w.closes ≤ w.closes := by simp [Instant.le_iff_not_lt, Instant.lt_iff]
    exact absurd (once w.closes ⟨reached, inverted⟩) (by decide)
  · rintro ordered t ⟨closed, early⟩
    exact absurd (Instant.lt_of_le_of_lt closed early) ordered

theorem isSettled_of_parse {text : String} (read : reader.parse text = some w) : w.IsSettled := by
  obtain ⟨node, -, taken⟩ := Option.bind_eq_some_iff.mp read
  exact isSettled_of_reader taken

theorem isSettled_of_certified {text : String} {c : Certificate}
    (read : Certificate.reader.parse text = some c) : c.window.IsSettled := by
  obtain ⟨node, -, taken⟩ := Option.bind_eq_some_iff.mp read
  exact Certificate.isSettled_of_reader taken

theorem arises_iff : w.Arises ↔ w.opens ≤ w.closes ∨ w.opens.IsSettled ∧ w.closes.IsSettled := by
  constructor
  · intro arises
    cases arises with
    | made made =>
        obtain ⟨ordered, rfl⟩ := make_eq_ok.mp made
        exact .inl ordered
    | read read => exact .inr (isSettled_of_parse read)
    | certified read => exact .inr (isSettled_of_certified read)
  · rintro (ordered | own)
    · exact .made (make_eq_ok.mpr ⟨ordered, rfl⟩)
    · exact .read (returns 126 own).parse

/-- How a window arises and what phases it has. It can be made, from its two instants, exactly if it is
ordered. Reading does not ask for this: from its text, alone or in a certificate, whatever else that
certificate holds, a window comes with the instants that the text names. So the windows that arise are the
ordered ones and those whose instants are settled, in whatever order. An instant is in two phases from the
close of the window until it opens, and in one at any other time, so the phases exclude one another exactly
if the window is ordered. -/
theorem phases_exact (w : Window) (rest : Certificate) :
    (∀ opens closes, make opens closes = .ok w ↔ opens ≤ closes ∧ w = ⟨opens, closes⟩) ∧
      reader.parse w.toValue.print = some w.settled ∧
      Certificate.reader.parse { rest with window := w }.toValue.print =
        some { rest with window := w.settled } ∧
      (w.Arises ↔ w.opens ≤ w.closes ∨ w.opens.IsSettled ∧ w.closes.IsSettled) ∧
      (∀ t, (w.phases t).count true = if w.closes ≤ t ∧ t < w.opens then 2 else 1) ∧
      ((∀ t, (w.phases t).count true = 1) ↔ w.opens ≤ w.closes) := by
  refine ⟨?_, ?_, ?_, arises_iff, count_phases w, once_iff_ordered⟩
  · intro opens closes
    exact make_eq_ok
  · exact w.parse_print
  · exact Certificate.parse_print { rest with window := w }

def inverted : Window := ⟨midnight 20485, midnight 20454⟩

/-- In the month between, the window has closed and is yet to open. -/
theorem inverted_arises :
    reader.parse "\x7b\"begin\":\"2026-02-01T00:00:00Z\",\"end\":\"2026-01-01T00:00:00Z\"\x7d" =
        some inverted ∧
      inverted.Arises ∧ ¬inverted.opens ≤ inverted.closes ∧
      inverted.startsAfter (midnight 20460) = true ∧ inverted.endedBefore (midnight 20460) = true ∧
      (inverted.phases (midnight 20460)).count true = 2 := by
  have read : reader.parse "\x7b\"begin\":\"2026-02-01T00:00:00Z\",\"end\":\"2026-01-01T00:00:00Z\"\x7d" =
      some inverted := by decide +kernel
  exact ⟨read, .read read, by decide, by decide, by decide, by decide⟩

end Window

end Coverage
