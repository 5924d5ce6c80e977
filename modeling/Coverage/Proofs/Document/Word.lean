import Mathlib.Data.List.Basic
import Mathlib.Tactic.SplitIfs
import Coverage.Consumer
import Coverage.Proofs.Document.Digits
import Coverage.Status
/-!
Identifiers of consumers and words of the vocabulary are read back from their texts.
-/

namespace Coverage

namespace ConsumerId

theorem length_splitGroups {n : Nat} {lengths : List Nat} {s : List Char}
    (whole : s.length = (n :: lengths).foldr (· + ·) 0) :
    (splitGroups (n :: lengths) s).length = s.length + lengths.length := by
  induction lengths generalizing n s with
  | nil => simp [splitGroups, whole]
  | cons m lengths ih =>
      rw [List.foldr_cons] at whole
      have later := ih (n := m) (s := s.drop n) (by rw [List.length_drop]; omega)
      simp only [splitGroups, List.length_append, List.length_cons, later, List.length_take,
        List.length_drop]
      omega

theorem joinGroups?_splitGroups {n : Nat} {lengths : List Nat} {s : List Char}
    (whole : s.length = (n :: lengths).foldr (· + ·) 0) :
    joinGroups? (n :: lengths) (splitGroups (n :: lengths) s) = some s := by
  induction lengths generalizing n s with
  | nil =>
      have all : s.take n = s := List.take_of_length_le (by simp [whole])
      rw [splitGroups, joinGroups?, all, if_pos (by simpa using whole)]
  | cons m lengths ih =>
      rw [List.foldr_cons] at whole
      have later := ih (n := m) (s := s.drop n) (by rw [List.length_drop]; omega)
      have length : (s.take n).length = n := List.length_take_of_le (by omega)
      have first : (s.take n ++ '-' :: splitGroups (m :: lengths) (s.drop n)).take n = s.take n :=
        List.take_left' length
      have rest : (s.take n ++ '-' :: splitGroups (m :: lengths) (s.drop n)).drop n =
          '-' :: splitGroups (m :: lengths) (s.drop n) := List.drop_left' length
      simp only [splitGroups, joinGroups?, rest, first, later, Option.map_some, List.take_append_drop]

theorem ofHex?_hexDigits (c : ConsumerId) : ofHex? (Text.hexDigits 32 c.bits.toNat) = some c := by
  obtain ⟨values, read, value⟩ := Text.mapM_hexDigits 32 c.bits.toNat
  have bits : BitVec.ofNat 128 (c.bits.toNat % Nat.pow 16 32) = c.bits := by
    rw [Nat.mod_eq_of_lt (by exact c.bits.isLt), BitVec.ofNat_toNat, BitVec.setWidth_eq]
  rw [ofHex?, if_neg (not_not.mpr (Text.length_hexDigits 32 _)), read]
  show some (ConsumerId.mk (BitVec.ofNat 128 (values.foldl (fun n digit => 16 * n + digit) 0))) = some c
  rw [value, bits]

theorem ofText?_text (c : ConsumerId) : ofText? c.text = some c := by
  have whole : (Text.hexDigits 32 c.bits.toNat).length = groupLengths.foldr (· + ·) 0 :=
    Text.length_hexDigits 32 _
  have length : (splitGroups groupLengths (Text.hexDigits 32 c.bits.toNat)).length = 36 := by
    rw [groupLengths, length_splitGroups whole, whole]
    rfl
  have joined : joinGroups? groupLengths (splitGroups groupLengths (Text.hexDigits 32 c.bits.toNat)) =
      some (Text.hexDigits 32 c.bits.toNat) := joinGroups?_splitGroups whole
  simp [ofText?, text, length, bare?, joined, ofHex?_hexDigits]

end ConsumerId

theorem SystemStatus.word_ofWord (word : String) : (ofWord word).word = word := by
  unfold ofWord
  split_ifs with valid invalid partlyValid disabled unknown
  · exact valid.symm
  · exact invalid.symm
  · exact partlyValid.symm
  · exact disabled.symm
  · exact unknown.symm
  · rfl

theorem Standing.ofWord?_word (s : Standing) : ofWord? s.word = some s := by
  cases s <;> decide

end Coverage
