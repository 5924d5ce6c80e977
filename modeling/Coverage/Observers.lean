import Coverage.Request
/-!
Observers are told of every new assessment. A pass calls the callbacks that are registered when it
starts, each once and in the order of registration; while they run they may change the set and start
passes of their own, which may nest to a given depth.
-/

namespace Coverage

structure Observers where
  callbacks : List CallbackId := []
  deriving DecidableEq, Repr

namespace Observers

def size (o : Observers) : Nat := o.callbacks.length

def isEmpty (o : Observers) : Bool := o.callbacks.isEmpty

def contains (o : Observers) (cb : CallbackId) : Bool := o.callbacks.contains cb

/-- Registers a callback at the end; false if it was registered already. -/
def add (o : Observers) (cb : CallbackId) : Observers × Bool :=
  if o.contains cb then (o, false) else (⟨o.callbacks ++ [cb]⟩, true)

def remove (o : Observers) (cb : CallbackId) : Observers × Bool :=
  if o.contains cb then (⟨o.callbacks.erase cb⟩, true) else (o, false)

theorem contains_iff {o : Observers} {cb : CallbackId} : o.contains cb = true ↔ cb ∈ o.callbacks :=
  List.contains_iff_mem

theorem nodup_add {o : Observers} (distinct : o.callbacks.Nodup) (cb : CallbackId) :
    (o.add cb).1.callbacks.Nodup := by
  unfold add
  split
  · exact distinct
  · rename_i absent
    rw [contains_iff] at absent
    exact List.nodup_append.mpr
      ⟨distinct, by simp, fun a ha b hb same => absent (List.mem_singleton.mp hb ▸ same ▸ ha)⟩

theorem nodup_remove {o : Observers} (distinct : o.callbacks.Nodup) (cb : CallbackId) :
    (o.remove cb).1.callbacks.Nodup := by
  unfold remove
  split
  · exact distinct.erase cb
  · exact distinct

/-- Carries out what a callback does. `nested` starts a pass; it is none where passes may not nest any
deeper. -/
def carryOut (nested : Option (Observers → Dialogue Observers)) (effect : Effect) (o : Observers) :
    Dialogue (Observers × Reply) :=
  match effect with
  | .add cb => .done ((o.add cb).1, .flag (o.add cb).2)
  | .remove cb => .done ((o.remove cb).1, .flag (o.remove cb).2)
  | .contains cb => .done (o, .flag (o.contains cb))
  | .size => .done (o, .count o.size)
  | .nothing => .done (o, .none)
  | .notify =>
    match nested with
    | none => .done (o, .none)
    | some pass => do
      let o ← pass o
      return (o, .done)

def perform (nested : Option (Observers → Dialogue Observers)) (cb : CallbackId) :
    Behaviour → Observers → Dialogue Observers
  | .stop, o => .done o
  | .act action next, o => do
    let (o, reply) ← carryOut nested action.effect o
    Dialogue.ask (.acted cb action reply)
    perform nested cb (next reply) o

def callAll (nested : Option (Observers → Dialogue Observers)) :
    List CallbackId → Observers → Dialogue Observers
  | [], o => .done o
  | cb :: rest, o => do
    let behaviour ← Dialogue.ask (.call cb)
    let o ← perform nested cb behaviour o
    callAll nested rest o

/-- One pass; the callbacks may nest passes `depth` deep. -/
def notify : Nat → Observers → Dialogue Observers
  | 0, o => callAll none o.callbacks o
  | depth + 1, o => callAll (some (notify depth)) o.callbacks o

def debugText (o : Observers) : String := "Observers \x7b len: " ++ toString o.size ++ " \x7d"

end Observers

end Coverage
