import Coverage.Instant.Basic
import Coverage.Text.Digit
/-!
The written form of an instant: date and time joined by `T`, a fraction of the fewest of 0, 3, 6 or 9
digits that is exact, and the mark of UTC. Years outside 0 to 9999 carry a sign. A leap second is
written as second 60.
-/

namespace Coverage.Instant

def yearText (year : Int) : List Char :=
  if 0 ≤ year ∧ year ≤ 9999 then Text.padded 4 year.toNat
  else (if year < 0 then '-' else '+') :: Text.padded 4 year.natAbs

def fractionText (nano : Nat) : List Char :=
  if nano = 0 then []
  else if nano % 1000000 = 0 then '.' :: Text.padded 3 (nano / 1000000)
  else if nano % 1000 = 0 then '.' :: Text.padded 6 (nano / 1000)
  else '.' :: Text.padded 9 nano

def dateText (date : Calendar.Date) : List Char :=
  yearText date.year ++ '-' :: Text.padded 2 date.month ++ '-' :: Text.padded 2 date.day

def timeText (second nano : Nat) : List Char :=
  let leap := 1000000000 ≤ nano
  Text.padded 2 (second / 3600) ++ ':' :: Text.padded 2 (second / 60 % 60) ++ ':' ::
    Text.padded 2 (second % 60 + if leap then 1 else 0) ++
    fractionText (if leap then nano - 1000000000 else nano)

def chars (utc : List Char) (t : Instant) : List Char :=
  dateText (Calendar.Date.ofDay t.day) ++ 'T' :: timeText t.second t.nano ++ utc

def text (t : Instant) : String := String.ofList (t.chars ['Z'])

def offsetText (t : Instant) : String := String.ofList (t.chars ['+', '0', '0', ':', '0', '0'])

end Coverage.Instant
