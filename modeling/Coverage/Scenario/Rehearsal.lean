import Coverage.Scenario.World
/-!
Rehearsals of one set of observers with scripted callbacks.
-/

namespace Coverage.Scenario

inductive ObserverStep where
  | add (callback : CallbackId)
  | remove (callback : CallbackId)
  | contains (callback : CallbackId)
  | notify

structure ObserverElement where
  result : Option Bool
  calls : List Call
  observers : Observers

def takeObserverStep (nesting : Nat) (o : Observers) (w : World) :
    ObserverStep → Option Bool × Observers × World
  | .add cb => (some (o.add cb).2, (o.add cb).1, w)
  | .remove cb => (some (o.remove cb).2, (o.remove cb).1, w)
  | .contains cb => (some (o.contains cb), o, w)
  | .notify =>
    let (o, w) := (o.notify nesting).run World.answer w
    (none, o, w)

def rehearse (nesting : Nat) (o : Observers) (w : World) : List ObserverStep → List ObserverElement
  | [] => []
  | step :: rest =>
    let (result, o, w) := takeObserverStep nesting o w step
    ⟨result, w.calls, o⟩ :: rehearse nesting o { w with calls := [] } rest

end Coverage.Scenario
