import Coverage.Instant.Stamp
import Coverage.Text.Blank
import Coverage.Text.Digit
/-!
Three grammars of written timestamps. The strict one has fields of fixed width; the colonless one has
fields of variable width, an offset whose colon may be missing and no mark of UTC; the relaxed one also
admits blanks between the fields. Each reader takes one field off the front of a text and returns the
rest; a grammar has read a text if nothing is left.
-/

namespace Coverage.Stamp

open Text (skipBlank isBlank ofDigits)

def takeChar (c : Char) : List Char → Option (List Char)
  | [] => none
  | d :: rest => if d = c then some rest else none

def takeOneOf (cs : List Char) : List Char → Option (List Char)
  | [] => none
  | d :: rest => if d ∈ cs then some rest else none

def takeNumber (least most : Nat) (s : List Char) : Option (Nat × List Char) :=
  let digits := (s.take most).takeWhile Char.isDigit
  if least ≤ digits.length then some (ofDigits digits, s.drop digits.length) else none

/-- Digits of a fraction of a second as nanoseconds; digits after the ninth are dropped. -/
def nanoseconds (digits : List Char) : Nat :=
  let kept := digits.take 9
  ofDigits kept * Nat.pow 10 (9 - kept.length)

def takeFraction (s : List Char) : Option (Nat × List Char) :=
  match s with
  | '.' :: rest =>
    let digits := rest.takeWhile Char.isDigit
    if digits.isEmpty then none else some (nanoseconds digits, rest.drop digits.length)
  | _ => some (0, s)

def takeOffset (separator : List Char → Option (List Char)) (s : List Char) :
    Option (Int × List Char) := do
  let (sign, s) ← match s with
    | '+' :: rest => some ((1 : Int), rest)
    | '-' :: rest => some (-1, rest)
    | '−' :: rest => some (-1, rest)
    | _ => none
  let (hours, s) ← takeNumber 2 2 s
  let s ← separator s
  let (minutes, s) ← takeNumber 2 2 s
  if minutes < 60 ∧ hours < 24 then some (sign * (hours * 60 + minutes : Nat), s) else none

def looseSeparator (s : List Char) : Option (List Char) :=
  some (s.dropWhile fun c => c = ':' || isBlank c)

def takeZone (separator : List Char → Option (List Char)) (s : List Char) : Option (Int × List Char) :=
  match s with
  | 'Z' :: rest => some (0, rest)
  | 'z' :: rest => some (0, rest)
  | _ => takeOffset separator s

def takeNamedZone (s : List Char) : Option (Int × List Char) :=
  if (s.take 3).map Char.toUpper = ['U', 'T', 'C'] then some (0, s.drop 3) else takeZone looseSeparator s

/-- With a sign any number of digits, without one at most four. -/
def takeYear (s : List Char) : Option (Int × List Char) :=
  match skipBlank s with
  | '-' :: rest => (takeNumber 1 rest.length rest).map fun (n, rest) => (-(n : Int), rest)
  | '+' :: rest => (takeNumber 1 rest.length rest).map fun (n, rest) => ((n : Int), rest)
  | s => (takeNumber 1 4 s).map fun (n, rest) => ((n : Int), rest)

def takeField (s : List Char) : Option (Nat × List Char) := takeNumber 1 2 (skipBlank s)

def whole (result : Option (Stamp × List Char)) : Option Stamp :=
  match result with
  | some (stamp, []) => some stamp
  | _ => none

def strictStamp (s : List Char) : Option (Stamp × List Char) := do
  let (year, s) ← takeNumber 4 4 s
  let s ← takeChar '-' s
  let (month, s) ← takeNumber 2 2 s
  let s ← takeChar '-' s
  let (day, s) ← takeNumber 2 2 s
  let s ← takeOneOf ['T', 't', ' '] s
  let (hour, s) ← takeNumber 2 2 s
  let s ← takeChar ':' s
  let (minute, s) ← takeNumber 2 2 s
  let s ← takeChar ':' s
  let (second, s) ← takeNumber 2 2 s
  let (nanos, s) ← takeFraction s
  let (offset, s) ← takeZone (takeChar ':') s
  return (⟨⟨year, month, day⟩, hour, minute, second, nanos, offset⟩, s)

def colonlessStamp (s : List Char) : Option (Stamp × List Char) := do
  let (year, s) ← takeYear s
  let s ← takeChar '-' s
  let (month, s) ← takeField s
  let s ← takeChar '-' s
  let (day, s) ← takeField s
  let s ← takeChar 'T' s
  let (hour, s) ← takeField s
  let s ← takeChar ':' s
  let (minute, s) ← takeField s
  let s ← takeChar ':' s
  let (second, s) ← takeField s
  let (nanos, s) ← takeFraction s
  let (offset, s) ← takeOffset looseSeparator (skipBlank s)
  return (⟨⟨year, month, day⟩, hour, minute, second, nanos, offset⟩, s)

def relaxedStamp (s : List Char) : Option (Stamp × List Char) := do
  let (year, s) ← takeYear s
  let s ← takeChar '-' (skipBlank s)
  let (month, s) ← takeField s
  let s ← takeChar '-' (skipBlank s)
  let (day, s) ← takeField s
  let s ← takeOneOf ['T', 't', ' '] s
  let (hour, s) ← takeField s
  let s ← takeChar ':' (skipBlank s)
  let (minute, s) ← takeField s
  let s ← takeChar ':' (skipBlank s)
  let (second, s) ← takeField s
  let (nanos, s) ← takeFraction s
  let (offset, s) ← takeNamedZone (skipBlank s)
  return (⟨⟨year, month, day⟩, hour, minute, second, nanos, offset⟩, skipBlank s)

def strict? (s : List Char) : Option Stamp := whole (strictStamp s)

def colonless? (s : List Char) : Option Stamp := whole (colonlessStamp s)

def relaxed? (s : List Char) : Option Stamp := whole (relaxedStamp s)

end Coverage.Stamp

namespace Coverage.Instant

def ofText? (s : String) : Option Instant := (Stamp.relaxed? s.toList).bind Stamp.instant?

end Coverage.Instant
