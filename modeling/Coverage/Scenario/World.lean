import Coverage.Keeper
/-!
Scripted surroundings: a machine and an authority whose answers are set in advance, callbacks that
follow scripts, and a record of every call. What is revised on disk is seen once its source is
refreshed.
-/

namespace Coverage.Scenario

inductive Call where
  | connect
  | verdict (consumer : ConsumerId) (onDate : Option Instant)
  | storedVerdict (consumer : ConsumerId) (onDate : Option Instant)
  | contentAccess (consumer : ConsumerId)
  | push (consumer : ConsumerId) (products : List ProductId)
  | refreshProducts
  | refreshCertificates
  | reloadIdentity
  | resetConnection
  | poll (watcher : String)
  | callback (callback : CallbackId)
  | acted (callback : CallbackId) (action : Action) (reply : Reply)

structure Revision where
  installed : Option (Table ProductId Product) := none
  certificates : Option (List Certificate) := none
  registered : Option Bool := none
  consumer : Option (Option ConsumerId) := none
  verdict : Option (Except Failure (Option Verdict)) := none
  verdictError : Option (Option Failure) := none
  contentAccess : Option Bool := none
  contentAccessError : Option (Option Failure) := none
  connectError : Option (Option Failure) := none
  pushError : Option (Option Failure) := none
  stored : Option (List (Option Verdict)) := none

namespace Revision

def merge (a b : Revision) : Revision where
  installed := b.installed.or a.installed
  certificates := b.certificates.or a.certificates
  registered := b.registered.or a.registered
  consumer := b.consumer.or a.consumer
  verdict := b.verdict.or a.verdict
  verdictError := b.verdictError.or a.verdictError
  contentAccess := b.contentAccess.or a.contentAccess
  contentAccessError := b.contentAccessError.or a.contentAccessError
  connectError := b.connectError.or a.connectError
  pushError := b.pushError.or a.pushError
  stored := b.stored.or a.stored

end Revision

structure World where
  now : Instant
  installed : Table ProductId Product := .empty
  certificates : List Certificate := []
  registered : Bool := true
  consumer : Option ConsumerId
  verdict : Except Failure (Option Verdict) := .ok (some {})
  verdictError : Option Failure := none
  contentAccess : Bool := false
  contentAccessError : Option Failure := none
  connectError : Option Failure := none
  pushError : Option Failure := none
  stored : List (Option Verdict) := []
  /-- Revisions on disk that no refresh has read yet. -/
  pending : Revision := {}
  tripped : List String := []
  scripts : List (CallbackId × List Action) := []
  calls : List Call := []
  notices : List Notice := []

namespace World

def revise (w : World) (r : Revision) : World :=
  { w with
    installed := r.installed.getD w.installed
    certificates := r.certificates.getD w.certificates
    registered := r.registered.getD w.registered
    consumer := r.consumer.getD w.consumer
    verdict := r.verdict.getD w.verdict
    verdictError := r.verdictError.getD w.verdictError
    contentAccess := r.contentAccess.getD w.contentAccess
    contentAccessError := r.contentAccessError.getD w.contentAccessError
    connectError := r.connectError.getD w.connectError
    pushError := r.pushError.getD w.pushError
    stored := r.stored.getD w.stored }

def reviseDisk (w : World) (r : Revision) : World := { w with pending := w.pending.merge r }

def record (w : World) (call : Call) : World := { w with calls := w.calls ++ [call] }

def failOr {α : Type} (failure : Option Failure) (answer : Except Failure α) : Except Failure α :=
  match failure with
  | some failure => .error failure
  | none => answer

def nextStored (w : World) : Option Verdict × World :=
  match w.stored with
  | [] => (none, w)
  | verdict :: rest => (verdict, { w with stored := rest })

def script (w : World) (cb : CallbackId) : List Action := (w.scripts.lookup cb).getD []

/-- The pending revisions that one source reads are applied and forgotten. -/
def readProducts (w : World) : World :=
  { w.revise { installed := w.pending.installed } with pending := { w.pending with installed := none } }

def readCertificates (w : World) : World :=
  { w.revise { certificates := w.pending.certificates } with
    pending := { w.pending with certificates := none } }

def readIdentity (w : World) : World :=
  { w.revise { registered := w.pending.registered, consumer := w.pending.consumer } with
    pending := { w.pending with registered := none, consumer := none } }

def readConnection (w : World) : World :=
  { w.revise { connectError := w.pending.connectError } with
    pending := { w.pending with connectError := none } }

def answer : (r : Request) → World → r.Answer × World
  | .installed, w => (w.installed, w)
  | .find, w => (w.installed.get?, w)
  | .certificates, w => (w.certificates, w)
  | .registered, w => (w.registered, w)
  | .consumer, w => (w.consumer, w)
  | .connect, w => (failOr w.connectError (.ok ()), w.record .connect)
  | .verdict consumer onDate, w =>
    (failOr w.verdictError w.verdict, w.record (.verdict consumer onDate))
  | .storedVerdict consumer onDate, w => (w.record (.storedVerdict consumer onDate)).nextStored
  | .contentAccess consumer, w =>
    (failOr w.contentAccessError (.ok w.contentAccess), w.record (.contentAccess consumer))
  | .push consumer products, w =>
    (failOr w.pushError (.ok ()), w.record (.push consumer (products.map (·.id))))
  | .now, w => (w.now, w)
  | .refreshProducts, w => ((), (w.record .refreshProducts).readProducts)
  | .refreshCertificates, w => ((), (w.record .refreshCertificates).readCertificates)
  | .reloadIdentity, w => ((), (w.record .reloadIdentity).readIdentity)
  | .resetConnection, w => ((), (w.record .resetConnection).readConnection)
  | .poll watcher, w =>
    (w.tripped.contains watcher,
      { w.record (.poll watcher) with tripped := w.tripped.filter (· ≠ watcher) })
  | .note notice, w => ((), { w with notices := w.notices ++ [notice] })
  | .call cb, w => (.ofScript (w.script cb), w.record (.callback cb))
  | .acted cb action reply, w => ((), w.record (.acted cb action reply))

end World

end Coverage.Scenario
