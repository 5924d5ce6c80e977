import Coverage.Failure
import Coverage.Instant.Grammar
/-!
Timestamps as the authority sends them, and the date that is derived from a deadline. A timestamp is
read by the strict grammar, else by the colonless one; one that neither accepts but whose year has more
than four digits stands for a fixed late instant.
-/

namespace Coverage

inductive Deadline where
  | named (instant : Instant)
  | clamped (text : String)
  deriving DecidableEq

namespace Deadline

def latest : Instant where
  day := 2932780
  second := 0
  nano := 0
  firstDay_le := by decide
  le_lastDay := by decide
  second_lt := by decide
  nano_lt := by decide

/-- More than four digits stand before the first hyphen, plus signs aside. -/
def hasLongYear (s : List Char) : Bool :=
  let unsigned := s.dropWhile (· = '+')
  let year := unsigned.takeWhile (· ≠ '-')
  unsigned.contains '-' && 4 < year.length && year.all Char.isDigit

def stamp? (s : List Char) : Option Instant :=
  ((Stamp.strict? s).bind Stamp.instant?).orElse fun _ => (Stamp.colonless? s).bind Stamp.instant?

def read (raw : String) : Except Fault Deadline :=
  let s := Text.trim raw.toList
  match stamp? s with
  | some instant => .ok (.named instant)
  | none =>
    if hasLongYear s then .ok (.clamped (String.ofList s)) else .error (.notTimestamp (String.ofList s))

def instant : Deadline → Instant
  | .named instant => instant
  | .clamped _ => latest

end Deadline

/-- The start of the first full day after a deadline. The deadline is the first second that is no longer
covered; no result if a step leaves the range of instants. -/
def Instant.lapse? (deadline : Instant) : Option Instant :=
  (deadline.shift? (-1)).bind fun t => t.shift? 86400

end Coverage
