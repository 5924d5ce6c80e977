import Coverage.Text.Digit
/-!
Identifiers of consumers: 128 bits, written as 32 hexadecimal digits in groups of 8, 4, 4, 4 and 12.
They are read in any case, with or without the hyphens; with them also in braces or after a prefix.
-/

namespace Coverage

structure ConsumerId where
  bits : BitVec 128
  deriving DecidableEq, Repr

namespace ConsumerId

def groupLengths : List Nat := [8, 4, 4, 4, 12]

def joinGroups? : List Nat → List Char → Option (List Char)
  | [], s => if s.isEmpty then some [] else none
  | [n], s => if s.length = n then some s else none
  | n :: lengths, s =>
    match s.drop n with
    | '-' :: rest => (joinGroups? lengths rest).map (s.take n ++ ·)
    | _ => none

def splitGroups : List Nat → List Char → List Char
  | [], _ => []
  | [n], s => s.take n
  | n :: lengths, s => s.take n ++ '-' :: splitGroups lengths (s.drop n)

def ofHex? (digits : List Char) : Option ConsumerId := do
  if digits.length ≠ 32 then none
  let values ← digits.mapM Text.hexValue?
  return ⟨BitVec.ofNat 128 (values.foldl (fun n digit => 16 * n + digit) 0)⟩

def prefixText : List Char := ['u', 'r', 'n', ':', 'u', 'u', 'i', 'd', ':']

/-- The hyphenated digits, taken out of braces or from behind the prefix. -/
def bare? (s : List Char) : Option (List Char) :=
  if s.length = 36 then some s
  else if s.length = 38 ∧ s.head? = some '\x7b' ∧ s.getLast? = some '\x7d' then some (s.drop 1).dropLast
  else if s.length = 45 ∧ (s.take 9).map Char.toLower = prefixText then some (s.drop 9)
  else none

def ofText? (s : String) : Option ConsumerId :=
  let s := s.toList
  if s.length = 32 then ofHex? s
  else ((bare? s).bind (joinGroups? groupLengths)).bind ofHex?

def text (c : ConsumerId) : String :=
  String.ofList (splitGroups groupLengths (Text.hexDigits 32 c.bits.toNat))

def ofRandom (bits : BitVec 128) : ConsumerId :=
  let version := (bits &&& ~~~((0xF#128) <<< 76)) ||| ((0x4#128) <<< 76)
  ⟨(version &&& ~~~((0x3#128) <<< 62)) ||| ((0x2#128) <<< 62)⟩

end ConsumerId

end Coverage
