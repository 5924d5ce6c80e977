import Coverage.Request
/-!
The monitor keeps the latest assessment. A load asks for the authority's verdict and joins it with what
is known locally; without a registered identity the assessment is empty, and without a verdict the
previous one stays.
-/

namespace Coverage

inductive VerdictSource where
  | authority
  | store
  deriving DecidableEq, Repr

structure Monitor where
  settings : Settings
  source : VerdictSource
  /-- The installed products as of the latest load. -/
  installed : Table ProductId Product := .empty
  view : Assessment := {}

namespace Monitor

def fetch (m : Monitor) (consumer : ConsumerId) : Dialogue (Option Verdict) := do
  match m.source with
  | .store => Dialogue.ask (.storedVerdict consumer m.settings.onDate)
  | .authority =>
    match ← Dialogue.ask (.verdict consumer m.settings.onDate) with
    | .ok verdict => return verdict
    | .error failure =>
      Dialogue.note (.verdictFailed consumer failure)
      return none

def askContentAccess (consumer : ConsumerId) : Dialogue Bool := do
  match ← Dialogue.ask (.contentAccess consumer) with
  | .ok contentAccess => return contentAccess
  | .error failure =>
    Dialogue.note (.contentAccessFailed failure)
    return false

/-- Replaces the assessment, unless the date of the lapse cannot be computed. -/
def judge (m : Monitor) (verdict : Verdict) (circumstances : Circumstances) :
    Dialogue (Progress Monitor) := do
  match Assessment.assess? verdict circumstances with
  | none => return .stopped m
  | some view =>
    Dialogue.noteAll (Assessment.notices verdict circumstances)
    Dialogue.note (.assessed view.overview)
    Dialogue.note (.partialStacks view.partialStacks.keys)
    return .finished { m with view }

def loadFor (m : Monitor) (consumer : ConsumerId) : Dialogue (Progress Monitor) := do
  match ← Dialogue.ask .connect with
  | .error failure =>
    Dialogue.note (.noConnection failure)
    return .finished m
  | .ok () =>
    match ← m.fetch consumer with
    | none =>
      Dialogue.note (.noVerdict consumer)
      return .finished m
    | some verdict =>
      let contentAccess ← askContentAccess consumer
      let certificates ← Dialogue.ask .certificates
      let now ← Dialogue.ask .now
      let find ← Dialogue.ask .find
      m.judge verdict { contentAccess, installed := m.installed, find, certificates, now }

def load (m : Monitor) : Dialogue (Progress Monitor) := do
  let installed ← Dialogue.ask .installed
  let m := { m with installed }
  match ← Dialogue.ask .registered with
  | false =>
    Dialogue.note .unregistered
    return .finished { m with view := {} }
  | true =>
    match ← Dialogue.ask .consumer with
    | none =>
      Dialogue.note .noConsumer
      return .finished { m with view := {} }
    | some consumer => m.loadFor consumer

def start (settings : Settings) (source : VerdictSource) : Dialogue (Progress Monitor) :=
  load { settings, source }

def standing (m : Monitor) (registered : Bool) (p : ProductId) : Standing :=
  if registered then m.view.standing p else .unknown

def status (m : Monitor) (registered : Bool) : SystemStatus :=
  if registered then m.view.status else .unknown

def isValid (m : Monitor) (registered : Bool) : Bool :=
  m.status registered = .valid || m.status registered = .disabled

def isWarning (m : Monitor) (now : Instant) : Bool := m.view.inForce.any (·.isExpiringAt now)

/-- The caller has looked at the registration before: an unknown status shows as valid. -/
def icon (m : Monitor) (registered : Bool) (now : Instant) : Icon :=
  match m.status registered with
  | .invalid => .expired
  | .partlyValid => .partlyValid
  | _ => if m.isWarning now then .warning else .valid

end Monitor

end Coverage
