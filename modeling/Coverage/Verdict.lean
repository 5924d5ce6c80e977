import Coverage.Identifier
import Coverage.Instant.Deadline
import Coverage.Json.Value
import Coverage.Status
/-!
The authority's verdict on one consumer: which products and stacks it holds to be covered, partly
covered or uncovered, a status word, a deadline and reasons. The status of the system is the word if
there is one, else it follows from what the verdict lists.
-/

namespace Coverage

structure Reason where
  key : String
  message : String
  attributes : Table String String
  deriving DecidableEq

abbrev Payloads := List Json.Value

structure Verdict where
  compliant : Table ProductId Payloads := .empty
  partlyCompliant : Table ProductId Payloads := .empty
  partialStacks : Table StackId Payloads := .empty
  nonCompliant : List ProductId := []
  status : Option String := none
  compliantUntil : Option String := none
  /-- None if the authority does not support reasons. -/
  reasons : Option (List Reason) := none

namespace Verdict

instance : Inhabited Verdict := ⟨{}⟩

/-- The status word, unless it is empty. -/
def explicitStatus (v : Verdict) : Option String := v.status.filter (· ≠ "")

def systemStatus (v : Verdict) : SystemStatus :=
  match v.explicitStatus with
  | some word => .ofWord word
  | none =>
    if !v.nonCompliant.isEmpty then .invalid
    else if !v.partlyCompliant.isEmpty || !v.partialStacks.isEmpty || !(v.reasons.getD []).isEmpty then
      .partlyValid
    else .unknown

def deadline (v : Verdict) : Except Fault (Option Deadline) :=
  match v.compliantUntil with
  | none => .ok none
  | some raw => (Deadline.read raw).map some

end Verdict

end Coverage
