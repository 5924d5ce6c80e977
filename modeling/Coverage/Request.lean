import Coverage.Assessment
import Coverage.Program
import Coverage.Settings
/-!
What the monitor asks of its surroundings: the local inventory, certificates and identity, the
authority, the clock, watchers, the log, and callbacks of observers.
-/

namespace Coverage

abbrev CallbackId := String

/-- What a callback may do to the set of observers while it runs. -/
inductive Effect where
  | add (callback : CallbackId)
  | remove (callback : CallbackId)
  | contains (callback : CallbackId)
  | size
  | notify
  /-- Something that does not concern the observers. -/
  | nothing
  deriving DecidableEq, Repr

structure Action where
  effect : Effect
  description : Json.Value

inductive Reply where
  | flag (value : Bool)
  | count (value : Nat)
  | done
  | none
  deriving DecidableEq, Repr

/-- One run of a callback: it stops, or acts and goes on in view of the reply. -/
inductive Behaviour where
  | stop
  | act (action : Action) (next : Reply → Behaviour)

def Behaviour.ofScript : List Action → Behaviour
  | [] => .stop
  | action :: rest => .act action fun _ => ofScript rest

inductive Request where
  | installed
  | find
  | certificates
  | registered
  | consumer
  | connect
  | verdict (consumer : ConsumerId) (onDate : Option Instant)
  | storedVerdict (consumer : ConsumerId) (onDate : Option Instant)
  | contentAccess (consumer : ConsumerId)
  | push (consumer : ConsumerId) (products : List Product)
  | now
  | refreshProducts
  | refreshCertificates
  | reloadIdentity
  | resetConnection
  | poll (watcher : String)
  | note (notice : Notice)
  | call (callback : CallbackId)
  | acted (callback : CallbackId) (action : Action) (reply : Reply)

def Request.Answer : Request → Type
  | installed => Table ProductId Product
  | find => ProductId → Option Product
  | certificates => List Certificate
  | registered => Bool
  | consumer => Option ConsumerId
  | connect => Except Failure Unit
  | verdict _ _ => Except Failure (Option Verdict)
  | storedVerdict _ _ => Option Verdict
  | contentAccess _ => Except Failure Bool
  | push _ _ => Except Failure Unit
  | now => Instant
  | poll _ => Bool
  | call _ => Behaviour
  | refreshProducts | refreshCertificates | reloadIdentity | resetConnection | note _ | acted _ _ _ =>
    Unit

abbrev Dialogue := Program Request Request.Answer

namespace Dialogue

def ask (r : Request) : Dialogue r.Answer := Program.ask r Program.done

def note (n : Notice) : Dialogue Unit := ask (.note n)

def noteAll : List Notice → Dialogue Unit
  | [] => .done ()
  | n :: rest => do
    note n
    noteAll rest

end Dialogue

/-- A state after work on it, which may have stopped short because a date left the range of instants. -/
inductive Progress (σ : Type) where
  | finished (state : σ)
  | stopped (state : σ)

namespace Progress

def state {σ : Type} : Progress σ → σ
  | finished state => state
  | stopped state => state

def map {σ τ : Type} (f : σ → τ) : Progress σ → Progress τ
  | finished state => .finished (f state)
  | stopped state => .stopped (f state)

theorem state_map {σ τ : Type} (f : σ → τ) (progress : Progress σ) :
    (progress.map f).state = f progress.state := by
  cases progress <;> rfl

def isFinished {σ : Type} : Progress σ → Bool
  | finished _ => true
  | stopped _ => false

end Progress

end Coverage
