import Coverage.Monitor
import Coverage.Observers
/-!
The keeper follows local changes. It polls one watcher for each source, refreshes the sources that
changed, pushes the list of installed products to the authority, reloads the assessment and tells the
observers.
-/

namespace Coverage

inductive Push where
  | updated
  | skipped
  | authFailed (failure : Failure)
  deriving DecidableEq, Repr

def Push.isUpdated (p : Push) : Bool := p = .updated

/-- Sends the products to the authority. A rejected identity is an outcome, other failures are errors. -/
def pushAs (consumer : ConsumerId) : Dialogue (Except Failure Push) := do
  let installed ← Dialogue.ask .installed
  let sent ← match ← Dialogue.ask .connect with
    | .error failure => pure (.error failure)
    | .ok () => Dialogue.ask (.push consumer installed.values)
  match sent with
  | .ok () =>
    Dialogue.note (.productsPushed consumer installed.values.length)
    return .ok .updated
  | .error failure =>
    if failure.isAuthFailure then
      Dialogue.note (.identityRejected consumer failure)
      return .ok (.authFailed failure)
    else return .error failure

def pushProducts : Dialogue (Except Failure Push) := do
  match ← Dialogue.ask .registered with
  | false => return .ok .skipped
  | true =>
    match ← Dialogue.ask .consumer with
    | none => return .ok .skipped
    | some consumer => pushAs consumer

structure Watchers where
  products : Option String := none
  entitlements : Option String := none
  consumer : Option String := none
  deriving DecidableEq, Repr

namespace Watchers

def get (w : Watchers) : Source → Option String
  | .products => w.products
  | .entitlements => w.entitlements
  | .consumer => w.consumer

def set (w : Watchers) (source : Source) (watcher : String) : Watchers :=
  match source with
  | .products => { w with products := some watcher }
  | .entitlements => { w with entitlements := some watcher }
  | .consumer => { w with consumer := some watcher }

def ofList (watchers : List (Source × String)) : Watchers :=
  watchers.foldl (fun w entry => w.set entry.1 entry.2) {}

def toList (w : Watchers) : List (Source × String) :=
  Source.all.filterMap fun source => (w.get source).map (source, ·)

end Watchers

structure Keeper where
  monitor : Monitor
  watchers : Watchers
  observers : Observers := {}
  /-- How deep callbacks may nest passes. -/
  nesting : Nat
  lastPush : Push

namespace Keeper

/-- Pushes the list of installed products if the settings say so, then loads. The verdict is only
accurate once the authority knows what is installed. -/
def start (settings : Settings) (source : VerdictSource) (watchers : Watchers) (nesting : Nat) :
    Dialogue (Except Failure (Progress Keeper)) := do
  let pushed ← if settings.pushProducts then pushProducts else pure (.ok .skipped)
  match pushed with
  | .error failure => return .error failure
  | .ok lastPush =>
    let progress ← Monitor.start settings source
    return .ok (progress.map fun monitor => { monitor, watchers, nesting, lastPush })

def load (k : Keeper) : Dialogue (Progress Keeper) := do
  let progress ← k.monitor.load
  return progress.map fun monitor => { k with monitor }

/-- Pushes the list again; a failure leaves the latest outcome as it was. -/
def push (k : Keeper) : Dialogue (Keeper × Except Failure Push) := do
  if k.monitor.settings.pushProducts then
    match ← pushProducts with
    | .ok lastPush => return ({ k with lastPush }, .ok lastPush)
    | .error failure => return (k, .error failure)
  else return ({ k with lastPush := .skipped }, .ok .skipped)

def refresh (k : Keeper) : Source → Dialogue Keeper
  | .products => do
    Dialogue.ask .refreshProducts
    let (k, pushed) ← k.push
    match pushed with
    | .ok _ => return k
    | .error failure =>
      Dialogue.note (.pushFailed failure)
      return k
  | .entitlements => do
    Dialogue.ask .refreshCertificates
    return k
  | .consumer => do
    Dialogue.ask .reloadIdentity
    Dialogue.ask .resetConnection
    return k

def handleChange (k : Keeper) (source : Source) : Dialogue (Progress Keeper) := do
  Dialogue.note (.sourceChanged source)
  let k ← k.refresh source
  k.load

def handleChanges (k : Keeper) : List Source → Dialogue (Progress Keeper)
  | [] => .done (.finished k)
  | source :: rest => do
    match ← k.handleChange source with
    | .finished k => k.handleChanges rest
    | .stopped k => return .stopped k

def pollAll : List (Source × String) → Dialogue (List Source)
  | [] => .done []
  | (source, watcher) :: rest => do
    let changed : Bool ← Dialogue.ask (.poll watcher)
    let later ← pollAll rest
    return if changed then source :: later else later

def notify (k : Keeper) : Dialogue Keeper := do
  let registered ← Dialogue.ask .registered
  Dialogue.note (.recomputed k.observers.size (k.monitor.status registered))
  let observers ← k.observers.notify k.nesting
  return { k with observers }

def notifyAfter : Progress Keeper → Dialogue (Progress Keeper)
  | .stopped k => .done (.stopped k)
  | .finished k => do
    let k ← k.notify
    return .finished k

def forceCheck (k : Keeper) : Dialogue (Progress Keeper) := do
  match ← pollAll k.watchers.toList with
  | [] => return .finished k
  | changed =>
    let progress ← k.handleChanges changed
    notifyAfter progress

def onChange (k : Keeper) : Dialogue (Progress Keeper) := do
  let progress ← k.load
  notifyAfter progress

def addCallback (k : Keeper) (cb : CallbackId) : Keeper × Bool :=
  ({ k with observers := (k.observers.add cb).1 }, (k.observers.add cb).2)

def removeCallback (k : Keeper) (cb : CallbackId) : Keeper × Bool :=
  ({ k with observers := (k.observers.remove cb).1 }, (k.observers.remove cb).2)

def hasEntitlements : Dialogue Bool := do
  let certificates ← Dialogue.ask .certificates
  return !certificates.isEmpty

end Keeper

end Coverage
