import Mathlib.Data.List.Basic
import Coverage.Text.Digit
/-!
Digits that are written are read back: decimal ones with or without padding, hexadecimal ones as many
as are written. What reads a run of characters of one kind needs to know where the run stops.
-/

namespace Coverage.Text

/-- What follows, if anything does, begins with a character of another kind. -/
def Stops (kind : Char → Bool) (rest : List Char) : Prop := ∀ c ∈ rest.head?, kind c = false

theorem stops_nil (kind : Char → Bool) : Stops kind [] := nofun

theorem stops_cons {kind : Char → Bool} {c : Char} (rest : List Char) (other : kind c = false) :
    Stops kind (c :: rest) := by
  intro d first
  rwa [← Option.some.inj first]

theorem ofDigits_eq (digits : List Char) : ofDigits digits = Nat.ofDigitChars 10 digits 0 :=
  Nat.ofDigitChars_eq_foldl.symm

theorem ofDigits_toDigits (n : Nat) : ofDigits (Nat.toDigits 10 n) = n := by
  rw [ofDigits_eq, Nat.ofDigitChars_ten_toDigits]

theorem ofDigits_padded (width n : Nat) : ofDigits (padded width n) = n := by
  rw [ofDigits_eq, padded, Nat.ofDigitChars_append, Nat.ofDigitChars_replicate_zero, Nat.mul_zero,
    Nat.ofDigitChars_ten_toDigits]

theorem isDigit_of_mem_toDigits {n : Nat} {c : Char} (member : c ∈ Nat.toDigits 10 n) :
    c.isDigit = true :=
  Nat.isDigit_of_mem_toDigits (by decide) (by decide) member

theorem exists_toDigits (n : Nat) : ∃ c rest, Nat.toDigits 10 n = c :: rest ∧ c.isDigit = true := by
  obtain ⟨c, rest, begins⟩ := List.exists_cons_of_ne_nil (Nat.toDigits_ne_nil (n := n) (b := 10))
  exact ⟨c, rest, begins, isDigit_of_mem_toDigits (n := n) (by simp [begins])⟩

theorem isDigit_of_mem_padded {width n : Nat} {c : Char} (member : c ∈ padded width n) :
    c.isDigit = true := by
  rcases List.mem_append.mp member with padding | digit
  · rw [(List.mem_replicate.mp padding).2]
    rfl
  · exact isDigit_of_mem_toDigits digit

theorem length_padded {width n : Nat} (positive : 0 < width) (fits : n < Nat.pow 10 width) :
    (padded width n).length = width := by
  have short : (Nat.toDigits 10 n).length ≤ width :=
    (Nat.length_toDigits_le_iff (by decide) positive).mpr fits
  simp only [padded, List.length_append, List.length_replicate]
  omega

theorem padded_ne_nil (width n : Nat) : padded width n ≠ [] := by
  simp [padded]

theorem head_toDigits_ne_zero {n : Nat} (positive : 0 < n) :
    (Nat.toDigits 10 n).head? ≠ some '0' := by
  induction n using Nat.strongRecOn with
  | ind n ih =>
      rw [Nat.toDigits_eq_if (by decide)]
      split
      · simp [Nat.ne_of_gt positive]
      · have smaller := ih (n / 10) (by omega) (by omega)
        rwa [List.head?_append_of_ne_nil _ Nat.toDigits_ne_nil]

theorem hexValue?_hexDigit : ∀ n < 16, hexValue? (hexDigit n) = some n := by
  decide

theorem length_hexDigits (width n : Nat) : (hexDigits width n).length = width := by
  induction width generalizing n with
  | zero => rfl
  | succ width ih => simp [hexDigits, ih]

theorem mapM_hexDigits (width n : Nat) :
    ∃ values, (hexDigits width n).mapM hexValue? = some values ∧
      values.foldl (fun m digit => 16 * m + digit) 0 = n % Nat.pow 16 width := by
  induction width generalizing n with
  | zero => exact ⟨[], rfl, by simp [Nat.mod_one]⟩
  | succ width ih =>
      obtain ⟨values, read, value⟩ := ih (n / 16)
      have last := hexValue?_hexDigit (n % 16) (Nat.mod_lt n (by decide))
      refine ⟨values ++ [n % 16], by simp [hexDigits, List.mapM_append, read, last], ?_⟩
      rw [List.foldl_append, value]
      have split : n % Nat.pow 16 (width + 1) = n % 16 + 16 * (n / 16 % Nat.pow 16 width) := by
        rw [← Nat.mod_mul]
        exact congrArg (n % ·) Nat.pow_succ'
      rw [split]
      simp only [List.foldl_cons, List.foldl_nil]
      omega

end Coverage.Text
