import Coverage.Notice
import Coverage.Verdict
/-!
The assessment of a machine: the authority's verdict joined with what is known locally. What the
authority holds to be covered stays covered; an installed product that it does not cover is future or
expired if the local certificates that list it only start later or have ended, and unentitled
otherwise. Each bucket is a definition of its own.
-/

namespace Coverage

structure Assessment where
  valid : Table ProductId Payloads := .empty
  partlyValid : Table ProductId Payloads := .empty
  partialStacks : Table StackId Payloads := .empty
  expired : Table ProductId (List Certificate) := .empty
  future : Table ProductId (List Certificate) := .empty
  unentitled : Table ProductId Product := .empty
  status : SystemStatus := .unknown
  /-- The start of the first full day without coverage. -/
  lapse : Option Instant := none
  /-- The local certificates in force, whatever they list. -/
  inForce : List Certificate := []
  reasons : List Reason := []
  supportsReasons : Bool := false

instance : Inhabited Assessment := ⟨{}⟩

structure Circumstances where
  /-- In simple content access mode the authority does not judge what is installed. -/
  contentAccess : Bool
  installed : Table ProductId Product
  find : ProductId → Option Product
  certificates : List Certificate
  now : Instant

namespace Verdict

def covers (v : Verdict) (p : ProductId) : Bool := v.compliant.contains p || v.partlyCompliant.contains p

def fullyCompliant (v : Verdict) : Table ProductId Payloads :=
  v.compliant.filter fun p => !v.partlyCompliant.contains p

/-- The date that is derived from the deadline, none without a readable deadline; no result if the date
lies outside the range of instants. -/
def lapse? (v : Verdict) : Option (Option Instant) :=
  match v.deadline with
  | .ok (some deadline) => deadline.instant.lapse?.map some
  | .ok none => some none
  | .error _ => some none

def deadlineNotices (v : Verdict) : List Notice :=
  match v.deadline with
  | .ok (some (.clamped text)) => [.deadlineClamped text]
  | .ok _ => []
  | .error fault => [.deadlineUnreadable fault]

end Verdict

namespace Assessment

variable (v : Verdict) (c : Circumstances)

/-- Installed products that the verdict does not mention, unless installation is not judged. -/
def unmentioned : List ProductId :=
  if c.contentAccess then []
  else c.installed.keys.filter fun p => !v.covers p && !v.nonCompliant.contains p

def uncovered : List ProductId := v.nonCompliant.filter (!v.covers ·) ++ unmentioned v c

/-- The certificates that list a product, in their order, each as often as it lists it. -/
def listing (p : ProductId) : List Certificate :=
  c.certificates.flatMap fun certificate => List.replicate (certificate.products.count p) certificate

def futureListing (p : ProductId) : List Certificate :=
  (listing c p).filter (·.window.startsAfter c.now)

def endedListing (p : ProductId) : List Certificate :=
  (listing c p).filter fun certificate =>
    !certificate.window.startsAfter c.now && certificate.window.endedBefore c.now

def futureProducts : Table ProductId (List Certificate) :=
  c.installed.filterMap fun p _ =>
    if v.covers p || (futureListing c p).isEmpty then none else some (futureListing c p)

def expiredProducts : Table ProductId (List Certificate) :=
  c.installed.filterMap fun p _ =>
    if v.covers p || !(futureListing c p).isEmpty || (endedListing c p).isEmpty then none
    else some (endedListing c p)

def unentitledProducts : Table ProductId Product :=
  (Table.ofList ((uncovered v c).filterMap fun p => (c.find p).map (p, ·))).filter fun p =>
    !(futureProducts v c).contains p && !(expiredProducts v c).contains p

/-- Joins a verdict with the circumstances; no result if the date of the lapse cannot be computed. -/
def assess? : Option Assessment :=
  v.lapse?.map fun lapse => {
    valid := v.fullyCompliant
    partlyValid := v.partlyCompliant
    partialStacks := v.partialStacks
    expired := expiredProducts v c
    future := futureProducts v c
    unentitled := unentitledProducts v c
    status := v.systemStatus
    lapse
    inForce := c.certificates.filter (·.window.contains c.now)
    reasons := v.reasons.getD []
    supportsReasons := v.reasons.isSome }

def notices : List Notice :=
  v.deadlineNotices ++
    (v.compliant.keys.filter (v.partlyCompliant.contains ·)).map .reportedTwice ++
    (unmentioned v c).map .missingFromVerdict ++
    ((uncovered v c).filter fun p => (c.find p).isNone).map .notOnSystem

end Assessment

namespace Assessment

def standing (a : Assessment) (p : ProductId) : Standing :=
  if a.partlyValid.contains p then .partlySubscribed
  else if a.valid.contains p then .subscribed
  else if a.future.contains p then .future
  else if a.expired.contains p then .expired
  else if a.unentitled.contains p then .notSubscribed
  else .unknown

def bucketCount (a : Assessment) (p : ProductId) : Nat :=
  [a.valid.contains p, a.partlyValid.contains p, a.expired.contains p, a.future.contains p,
    a.unentitled.contains p].count true

def overview (a : Assessment) : Overview where
  valid := a.valid.keys
  partlyValid := a.partlyValid.keys
  expired := a.expired.keys
  unentitled := a.unentitled.keys
  future := a.future.keys
  lapse := a.lapse

end Assessment

end Coverage
