import Coverage.Text.Digit
/-!
Number literals of JSON: a sign, digits without a superfluous leading zero, and optionally a fraction
and an exponent.
-/

namespace Coverage.Json

structure Exponent where
  negative : Bool
  digits : List Char
  deriving DecidableEq, Repr

structure Literal where
  negative : Bool
  whole : List Char
  fraction : Option (List Char)
  exponent : Option Exponent
  deriving DecidableEq, Repr

namespace Literal

def isNumeric (c : Char) : Bool :=
  c.isDigit || c = '-' || c = '+' || c = '.' || c = 'e' || c = 'E'

def takeDigits (s : List Char) : Option (List Char × List Char) :=
  let digits := s.takeWhile Char.isDigit
  if digits.isEmpty then none else some (digits, s.drop digits.length)

def takeWhole (s : List Char) : Option (List Char × List Char) :=
  match s with
  | '0' :: rest => some (['0'], rest)
  | _ => takeDigits s

def takeFraction (s : List Char) : Option (Option (List Char) × List Char) :=
  match s with
  | '.' :: rest => (takeDigits rest).map fun (digits, rest) => (some digits, rest)
  | _ => some (none, s)

def takeSign (s : List Char) : Bool × List Char :=
  match s with
  | '-' :: rest => (true, rest)
  | '+' :: rest => (false, rest)
  | _ => (false, s)

def takeExponent (s : List Char) : Option (Option Exponent × List Char) :=
  match s with
  | c :: rest =>
    if c = 'e' ∨ c = 'E' then
      let (negative, rest) := takeSign rest
      (takeDigits rest).map fun (digits, rest) => (some ⟨negative, digits⟩, rest)
    else some (none, s)
  | [] => some (none, [])

def ofChars? (s : List Char) : Option Literal := do
  let (negative, s) := match s with
    | '-' :: rest => (true, rest)
    | _ => (false, s)
  let (whole, s) ← takeWhole s
  let (fraction, s) ← takeFraction s
  let (exponent, s) ← takeExponent s
  if s.isEmpty then some ⟨negative, whole, fraction, exponent⟩ else none

/-- The value of a literal that is an integer: without fraction or exponent, and not a negative zero. -/
def integer? (l : Literal) : Option Int :=
  if l.fraction.isSome || l.exponent.isSome then none
  else
    let n := Text.ofDigits l.whole
    if l.negative then if n = 0 then none else some (-(n : Int)) else some n

def ofInt (n : Int) : Literal := ⟨n < 0, Nat.toDigits 10 n.natAbs, none, none⟩

end Literal

end Coverage.Json
