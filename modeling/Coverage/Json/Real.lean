import Coverage.Json.Literal
/-!
Number literals as binary floating point numbers, and a decimal text of such a number that reads back
as the same number.

A literal is read in a fast and slightly inexact way: the digits are gathered into a 64-bit significand
as far as it holds them, the rest only shifts the exponent, and the significand is multiplied or divided
once by a power of ten.
-/

namespace Coverage.Json

structure Real where
  bits : UInt64
  deriving DecidableEq, Repr

namespace Real

def ofFloat (x : Float) : Real := ⟨x.toBits⟩

def toFloat (x : Real) : Float := Float.ofBits x.bits

/-- Appends digits to a significand while it stays below 2^64; returns the digits that did not fit. -/
def gather (significand : Nat) : List Char → Nat × List Char
  | [] => (significand, [])
  | c :: rest =>
    let next := 10 * significand + Text.digitValue c
    if next < Nat.pow 2 64 then gather next rest else (significand, c :: rest)

def powerOfTen (n : Nat) : Float := Float.ofScientific 1 false n

def lower (x : Float) (n : Nat) : Float :=
  if n ≤ 308 then x / powerOfTen n
  else if x == 0 then x
  else lower (x / powerOfTen 308) (n - 308)
termination_by n

/-- Multiplies by a power of ten, unless the result is too large. -/
def raise? (x : Float) (n : Nat) : Option Float :=
  if n ≤ 308 then
    let y := x * powerOfTen n
    if y.isInf then none else some y
  else if x == 0 then some x
  else none

def exponentOf (l : Literal) : Int :=
  match l.exponent with
  | none => 0
  | some e => if e.negative then -(Text.ofDigits e.digits : Int) else Text.ofDigits e.digits

def zero (negative : Bool) : Real := ⟨if negative then 0x8000000000000000 else 0⟩

def ofLiteral? (l : Literal) : Option Real := do
  let (significand, dropped) := gather 0 l.whole
  let places := l.fraction.getD []
  let (significand, ignored) := gather significand places
  let exponent : Int := dropped.length - (places.length - ignored.length : Nat) + exponentOf l
  if significand = 0 then return zero l.negative
  let x := significand.toUInt64.toFloat
  let y ← if exponent < 0 then some (lower x exponent.natAbs) else raise? x exponent.natAbs
  return ofFloat (if l.negative then -y else y)

def decompose (x : Real) : Bool × Nat × Int :=
  let n : Nat := x.bits.toNat
  let stored : Nat := n / Nat.pow 2 52 % Nat.pow 2 11
  let mantissa : Nat := n % Nat.pow 2 52
  let negative : Bool := n / Nat.pow 2 63 == 1
  if stored = 0 then (negative, mantissa, -1074) else (negative, mantissa + Nat.pow 2 52, (stored : Int) - 1075)

def ofUnits (units : Nat) (place : Int) : Real :=
  ofFloat (Float.ofScientific units (decide (place < 0)) place.natAbs)

/-- The decimal place of the first digit of `significand * 2 ^ exponent`, or the one after it. -/
def leadingPlace (significand : Nat) (exponent : Int) : Int :=
  ((significand.log2 : Int) + exponent) * 30103 / 100000

def readsBack (x : Real) (units : Nat) (place : Int) : Bool :=
  ofUnits units place = ⟨x.bits % 0x8000000000000000⟩

/-- Which of the two numbers of whole units around `numerator / denominator` to try first and second:
the nearer one is first, of two equally near ones the even one. -/
def neighbours (numerator denominator : Nat) : Nat × Nat :=
  let low := numerator / denominator
  let twice := 2 * (numerator % denominator)
  if twice < denominator ∨ twice = denominator ∧ low % 2 = 0 then (low, low + 1) else (low + 1, low)

/-- The decimal with whole units of `10 ^ place` that reads back and is nearest to
`significand * 2 ^ exponent`. -/
def unitsAt? (x : Real) (significand : Nat) (exponent place : Int) : Option Nat :=
  let (first, second) := neighbours
    (significand * Nat.pow 2 exponent.toNat * Nat.pow 10 (-place).toNat)
    (Nat.pow 2 (-exponent).toNat * Nat.pow 10 place.toNat)
  if x.readsBack first place then some first
  else if x.readsBack second place then some second
  else none

def coarsest? (x : Real) (significand : Nat) (exponent : Int) : List Int → Option (Nat × Int)
  | [] => none
  | place :: finer =>
    match x.unitsAt? significand exponent place with
    | some units => some (units, place)
    | none => coarsest? x significand exponent finer

def wholeLimit : Nat := 16

/-- The text of `units * 10 ^ place`: whole numbers of moderate length are written out with one decimal
place, all others with an exponent, so that none is taken for an integer. -/
def decimalChars (units : Nat) (place : Int) : List Char :=
  let digits := Nat.toDigits 10 units
  if 0 ≤ place ∧ digits.length + place.toNat ≤ wholeLimit then
    digits ++ List.replicate place.toNat '0' ++ ['.', '0']
  else digits ++ 'e' :: (if place < 0 then ['-'] else []) ++ Nat.toDigits 10 place.natAbs

/-- The shortest decimal that reads back. -/
def chars (x : Real) : List Char :=
  let (negative, significand, exponent) := x.decompose
  let top := leadingPlace significand exponent + 1
  let (units, place) :=
    if significand = 0 then (0, 0)
    else (coarsest? x significand exponent ((List.range 19).map fun i => top - (i : Nat))).getD (0, 0)
  let body := decimalChars units place
  if negative then '-' :: body else body

end Real

end Coverage.Json
