import Mathlib.Data.List.Basic
import Mathlib.Data.List.TakeWhile
import Mathlib.Tactic.SplitIfs
import Coverage.Json.Printer
import Coverage.Proofs.Document.Digits
/-!
The text of a value, scanned: strings with their escapes and integers come back as one token each. Each
lemma is about a text that stands before any other, where a number only has to end.
-/

namespace Coverage.Json

abbrev NumberEnds (rest : List Char) : Prop := Text.Stops Literal.isNumeric rest

/-- Wherever a number may end, this text is scanned as these tokens. -/
def Scans (s : List Char) (tokens : List Token) : Prop :=
  ∀ rest, NumberEnds rest →
    Token.scanFrom .between (s ++ rest) = (Token.scanFrom .between rest).map (tokens ++ ·)

namespace Token

theorem scan_punctuation {c : Char} {token : Token} (mark : start c = some ([token], .between))
    (rest : List Char) :
    scanFrom .between (c :: rest) = (scanFrom .between rest).map (token :: ·) := by
  cases later : scanFrom .between rest <;> simp [scanFrom, step, mark, later]

theorem scans_null : Scans ['n', 'u', 'l', 'l'] [null] := by
  intro rest _
  cases later : scanFrom .between rest <;>
    simp [scanFrom, step, start, isSpace, later]

theorem scans_true : Scans ['t', 'r', 'u', 'e'] [bool true] := by
  intro rest _
  cases later : scanFrom .between rest <;>
    simp [scanFrom, step, start, isSpace, later]

theorem scans_false : Scans ['f', 'a', 'l', 's', 'e'] [bool false] := by
  intro rest _
  cases later : scanFrom .between rest <;>
    simp [scanFrom, step, start, isSpace, later]

/-! Strings. -/

theorem scan_short {points : List Nat} {c : Char} {point : Nat} {rest : List Char}
    (short : escaped? c = some point) (other : c ≠ 'u') :
    scanFrom (.text points) ('\\' :: c :: rest) = scanFrom (.text (point :: points)) rest := by
  simp [scanFrom, step, short, other]

theorem scan_hex {points : List Nat} {n : Nat} {rest : List Char} (small : n < 32) :
    scanFrom (.text points) ('\\' :: 'u' :: Text.hexDigits 4 n ++ rest) =
      scanFrom (.text (n :: points)) rest := by
  have upper := Text.hexValue?_hexDigit (n / 16 % 16) (Nat.mod_lt _ (by decide))
  have lower := Text.hexValue?_hexDigit (n % 16) (Nat.mod_lt _ (by decide))
  have zero := Text.hexValue?_hexDigit 0 (by decide)
  have first : n / 16 / 16 / 16 % 16 = 0 := by omega
  have second : n / 16 / 16 % 16 = 0 := by omega
  have value : 16 * (n / 16 % 16) + n % 16 = n := by omega
  simp [scanFrom, step, Text.hexDigits, first, second, zero, upper, lower, value]

theorem scan_plain {points : List Nat} {c : Char} {rest : List Char} (quote : c ≠ '"')
    (slash : c ≠ '\\') (plain : 0x20 ≤ c.toNat) :
    scanFrom (.text points) (c :: rest) = scanFrom (.text (c.toNat :: points)) rest := by
  simp [scanFrom, step, quote, slash, Nat.not_lt.mpr plain]

theorem escapedChar_cases (c : Char) :
    (∃ d, escapedChar c = ['\\', d] ∧ escaped? d = some c.toNat ∧ d ≠ 'u') ∨
      (escapedChar c = '\\' :: 'u' :: Text.hexDigits 4 c.toNat ∧ c.toNat < 0x20) ∨
      (escapedChar c = [c] ∧ c ≠ '"' ∧ c ≠ '\\' ∧ 0x20 ≤ c.toNat) := by
  unfold escapedChar
  split_ifs with quote slash backspace tab line page back small
  · exact .inl ⟨_, rfl, by rw [quote]; rfl, by decide⟩
  · exact .inl ⟨_, rfl, by rw [slash]; rfl, by decide⟩
  · exact .inl ⟨_, rfl, by rw [backspace]; rfl, by decide⟩
  · exact .inl ⟨_, rfl, by rw [tab]; rfl, by decide⟩
  · exact .inl ⟨_, rfl, by rw [line]; rfl, by decide⟩
  · exact .inl ⟨_, rfl, by rw [page]; rfl, by decide⟩
  · exact .inl ⟨_, rfl, by rw [back]; rfl, by decide⟩
  · exact .inr (.inl ⟨rfl, small⟩)
  · exact .inr (.inr ⟨rfl, quote, slash, Nat.le_of_not_lt small⟩)

theorem scan_escapedChar (points : List Nat) (c : Char) (rest : List Char) :
    scanFrom (.text points) (escapedChar c ++ rest) = scanFrom (.text (c.toNat :: points)) rest := by
  rcases escapedChar_cases c with ⟨d, written, short, other⟩ | ⟨written, small⟩ | ⟨written, plain⟩
  · rw [written]
    exact scan_short short other
  · rw [written]
    exact scan_hex small
  · rw [written]
    exact scan_plain plain.1 plain.2.1 plain.2.2

theorem scan_content (s : List Char) (points : List Nat) (rest : List Char) :
    scanFrom (.text points) (s.flatMap escapedChar ++ rest) =
      scanFrom (.text ((s.map Char.toNat).reverse ++ points)) rest := by
  induction s generalizing points with
  | nil => rfl
  | cons c s ih =>
      rw [List.flatMap_cons, List.append_assoc, scan_escapedChar, ih]
      simp

theorem joinPairs_chars (s : List Char) : joinPairs (s.map Char.toNat) = some s := by
  have single (c : Char) : isHighSurrogate c.toNat = false ∧ isLowSurrogate c.toNat = false := by
    have valid := c.valid
    simp only [isHighSurrogate, isLowSurrogate, Char.toNat]
    rcases valid with low | high
    · grind
    · grind
  induction s with
  | nil => rfl
  | cons c s ih =>
      cases s with
      | nil => simp [joinPairs, single c]
      | cons d s =>
          simp only [List.map_cons] at ih
          simp [joinPairs, single c, ih]

theorem scans_quoted (s : String) : Scans (quoted s) [text (some s)] := by
  intro rest _
  have opened : scanFrom .between (quoted s ++ rest) =
      scanFrom (.text []) (s.toList.flatMap escapedChar ++ '"' :: rest) := by
    simp [quoted, scanFrom, step, start, isSpace]
  rw [opened, scan_content]
  cases later : scanFrom .between rest <;>
    simp [scanFrom, step, joinPairs_chars, later]

/-! Numbers. -/

theorem start_digit {c : Char} (digit : c.isDigit = true) : start c = some ([], .number [c]) := by
  have other : ∀ d : Char, d.isDigit = false → c ≠ d := by
    rintro d mark rfl
    rw [digit] at mark
    cases mark
  simp [start, isSpace, digit, other ' ' rfl, other '\n' rfl, other '\t' rfl, other '\r' rfl,
    other '[' rfl, other ']' rfl, other '\x7b' rfl, other '\x7d' rfl, other ':' rfl, other ',' rfl,
    other '"' rfl, other 'n' rfl, other 't' rfl, other 'f' rfl]

theorem scan_digits (taken s : List Char) (numeric : ∀ c ∈ s, Literal.isNumeric c = true)
    {rest : List Char} (ends : NumberEnds rest) :
    scanFrom (.number taken) (s ++ rest) =
      (literalToken (s.reverse ++ taken)).bind fun token =>
        (scanFrom .between rest).map (token :: ·) := by
  induction s generalizing taken with
  | nil =>
      cases rest with
      | nil =>
          show (literalToken taken).map ([·]) = (literalToken taken).bind fun token => some [token]
          cases literalToken taken <;> rfl
      | cons c rest =>
          have other := ends c rfl
          cases read : literalToken taken with
          | none => simp [scanFrom, step, other, read]
          | some token =>
              cases started : start c with
              | none => simp [scanFrom, step, other, read, started]
              | some next =>
                  cases later : scanFrom next.2 rest <;>
                    simp [scanFrom, step, other, read, started, later]
  | cons c s ih =>
      have here := numeric c List.mem_cons_self
      have later := ih (c :: taken) fun d member => numeric d (List.mem_cons_of_mem _ member)
      simpa [scanFrom, step, here] using later

theorem isNumeric_of_isDigit {c : Char} (digit : c.isDigit = true) : Literal.isNumeric c = true := by
  simp [Literal.isNumeric, digit]

theorem takeWhole_toDigits (n : Nat) :
    Literal.takeWhole (Nat.toDigits 10 n) = some (Nat.toDigits 10 n, []) := by
  have all : (Nat.toDigits 10 n).takeWhile Char.isDigit = Nat.toDigits 10 n :=
    List.takeWhile_eq_self_iff.mpr fun c member => Text.isDigit_of_mem_toDigits member
  rcases Nat.eq_zero_or_pos n with rfl | positive
  · rfl
  · unfold Literal.takeWhole
    split
    · next rest begins =>
      exact absurd (by rw [begins]; rfl) (Text.head_toDigits_ne_zero positive)
    · simp [Literal.takeDigits, all]

theorem ofChars?_integerChars (n : Int) :
    Literal.ofChars? (integerChars n) = some (Literal.ofInt n) := by
  have whole := takeWhole_toDigits n.natAbs
  unfold integerChars Literal.ofInt
  split
  · next below =>
    simp [Literal.ofChars?, whole, Literal.takeFraction, Literal.takeExponent, below]
  · next below =>
    obtain ⟨c, rest, begins, digit⟩ := Text.exists_toDigits n.natAbs
    have unsigned : c ≠ '-' := by
      rintro rfl
      cases digit
    rw [begins] at whole ⊢
    simp [Literal.ofChars?, unsigned, whole, Literal.takeFraction, Literal.takeExponent, below]

theorem scans_literal {s : List Char} {literal : Literal} (read : Literal.ofChars? s = some literal)
    (begins : ∃ c rest, s = c :: rest ∧ start c = some ([], .number [c]))
    (numeric : ∀ c ∈ s, Literal.isNumeric c = true) : Scans s [number literal] := by
  obtain ⟨c, tail, rfl, started⟩ := begins
  intro rest ends
  have opened : scanFrom .between (c :: tail ++ rest) = scanFrom (.number [c]) (tail ++ rest) := by
    simp [scanFrom, step, started]
  have complete : literalToken (tail.reverse ++ [c]) = some (number literal) := by
    simp [literalToken, read]
  rw [opened, scan_digits [c] tail (fun d member => numeric d (List.mem_cons_of_mem _ member)) ends,
    complete]
  rfl

theorem scans_integer (n : Int) : Scans (integerChars n) [number (Literal.ofInt n)] := by
  apply scans_literal (ofChars?_integerChars n)
  · unfold integerChars
    split
    · exact ⟨_, _, rfl, rfl⟩
    · obtain ⟨c, rest, begins, digit⟩ := Text.exists_toDigits n.natAbs
      exact ⟨c, rest, begins, start_digit digit⟩
  · intro c member
    unfold integerChars at member
    split at member
    · rcases List.mem_cons.mp member with rfl | digit
      · rfl
      · exact isNumeric_of_isDigit (Text.isDigit_of_mem_toDigits digit)
    · exact isNumeric_of_isDigit (Text.isDigit_of_mem_toDigits member)

theorem chars_negativeZero : (Real.zero true).chars = ['-', '0', '.', '0'] := by
  decide +kernel

theorem scans_negativeZero :
    Scans (Real.zero true).chars [number ⟨true, ['0'], some ['0'], none⟩] := by
  rw [chars_negativeZero]
  refine scans_literal rfl ⟨_, _, rfl, rfl⟩ ?_
  simp only [List.forall_mem_cons]
  exact ⟨rfl, rfl, rfl, rfl, nofun⟩

end Token

end Coverage.Json
