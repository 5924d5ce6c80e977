import Coverage.Failure
import Coverage.Instant.Printer
/-!
Half-open windows of validity. A window that is built from two instants opens no later than it closes;
one that is read from a document is taken as it stands.
-/

namespace Coverage

structure Window where
  opens : Instant
  closes : Instant
  deriving DecidableEq

namespace Window

def make (opens closes : Instant) : Except Fault Window :=
  if closes < opens then .error (.invertedWindow opens.offsetText closes.offsetText)
  else .ok ⟨opens, closes⟩

def contains (w : Window) (t : Instant) : Bool := w.opens ≤ t && t < w.closes

def startsAfter (w : Window) (t : Instant) : Bool := t < w.opens

def endedBefore (w : Window) (t : Instant) : Bool := w.closes ≤ t

/-- Nanoseconds until the window closes, negative once it has. -/
def remaining (w : Window) (t : Instant) : Int := w.closes.since t

end Window

end Coverage
