import Coverage.Scenario.World
/-!
Sessions: a monitor or a keeper in a scripted world, taken through a list of steps. Every step yields
its result, the calls and notices it caused and a summary of the state after it; a session ends where a
step stops short.
-/

namespace Coverage.Scenario

inductive Subject where
  | monitor (monitor : Monitor)
  | keeper (keeper : Keeper)

def Subject.monitorOf : Subject → Monitor
  | monitor m => m
  | keeper k => k.monitor

inductive Objection where
  /-- It is no step, or none for the subject. -/
  | unsuitable
  | notInstant
  /-- A value in it is not in its written form. -/
  | unreadable
  deriving DecidableEq, Repr

inductive Step where
  | set (revision : Revision)
  | disk (revision : Revision)
  | now (instant : Instant)
  | trip (watchers : List String)
  | load
  | view
  | accessors
  | query (products : List ProductId)
  | forceCheck
  | handleChange (source : Source)
  | onChange
  | notify
  | hasEntitlements
  | lastPush
  | push
  | add (callback : CallbackId)
  | remove (callback : CallbackId)
  | observers
  /-- A step that could not be read. -/
  | illegible (objection : Objection)

inductive Result where
  | none
  | stopped
  | failed (failure : Failure)
  | flag (value : Bool)
  | count (value : Nat)
  | push (push : Push)
  | view (view : Assessment)
  | accessors (monitor : Monitor)
  | standings (standings : List (Standing × Nat))
  | refused (objection : Objection)

structure Summary where
  registered : Bool
  status : SystemStatus
  isValid : Bool
  warning : Bool
  icon : Icon
  view : Assessment

def summarize (m : Monitor) (w : World) : Summary where
  registered := w.registered
  status := m.status w.registered
  isValid := m.isValid w.registered
  warning := m.isWarning w.now
  icon := m.icon w.registered w.now
  view := m.view

structure Element where
  result : Result
  calls : List Call
  notices : List Notice
  summary : Option Summary

structure Setup where
  world : World
  settings : Settings := {}
  source : VerdictSource := .authority

def advance {σ : Type} (wrap : σ → Subject) (work : Dialogue (Progress σ)) (w : World) :
    Result × Subject × World :=
  match work.run World.answer w with
  | (.finished state, w) => (.none, wrap state, w)
  | (.stopped state, w) => (.stopped, wrap state, w)

def takeKeeperStep (k : Keeper) (w : World) : Step → Result × Subject × World
  | .load => advance .keeper k.load w
  | .forceCheck => advance .keeper k.forceCheck w
  | .handleChange source => advance .keeper (k.handleChange source) w
  | .onChange => advance .keeper k.onChange w
  | .notify =>
    let (k, w) := k.notify.run World.answer w
    (.none, .keeper k, w)
  | .hasEntitlements =>
    let (present, w) := Keeper.hasEntitlements.run World.answer w
    (.flag present, .keeper k, w)
  | .lastPush => (.push k.lastPush, .keeper k, w)
  | .push =>
    match k.push.run World.answer w with
    | ((k, .ok push), w) => (.push push, .keeper k, w)
    | ((k, .error failure), w) => (.failed failure, .keeper k, w)
  | .add cb => (.flag (k.addCallback cb).2, .keeper (k.addCallback cb).1, w)
  | .remove cb => (.flag (k.removeCallback cb).2, .keeper (k.removeCallback cb).1, w)
  | .observers => (.count k.observers.size, .keeper k, w)
  | _ => (.refused .unsuitable, .keeper k, w)

def takeStep (s : Subject) (w : World) (step : Step) : Result × Subject × World :=
  match step with
  | .set revision => (.none, s, w.revise revision)
  | .disk revision => (.none, s, w.reviseDisk revision)
  | .now instant => (.none, s, { w with now := instant })
  | .trip watchers => (.none, s, { w with tripped := w.tripped ++ watchers })
  | .illegible objection => (.refused objection, s, w)
  | .view => (.view s.monitorOf.view, s, w)
  | .accessors => (.accessors s.monitorOf, s, w)
  | .query products =>
    (.standings (products.map fun p =>
      (s.monitorOf.standing w.registered p, s.monitorOf.view.bucketCount p)), s, w)
  | step =>
    match s, step with
    | .monitor m, .load => advance .monitor m.load w
    | .monitor m, _ => (.refused .unsuitable, .monitor m, w)
    | .keeper k, step => takeKeeperStep k w step

def element (result : Result) (s : Option Subject) (w : World) : Element where
  result
  calls := w.calls
  notices := w.notices
  summary := s.map fun s => summarize s.monitorOf w

def clear (w : World) : World := { w with calls := [], notices := [] }

def takeSteps (s : Subject) (w : World) : List Step → List Element
  | [] => []
  | step :: rest =>
    let (result, s, w) := takeStep s w step
    let first := element result (some s) w
    match result with
    | .stopped => [first]
    | _ => first :: takeSteps s (clear w) rest

def refuse (failure : Failure) : List Element :=
  [{ result := .failed failure, calls := [], notices := [], summary := none }]

def playMonitor (setup : Setup) (steps : List Step) : List Element :=
  match (Monitor.start setup.settings setup.source).run World.answer setup.world with
  | (.finished m, w) => element .none (some (.monitor m)) w :: takeSteps (.monitor m) (clear w) steps
  | (.stopped _, w) => [element .stopped none w]

def playKeeper (setup : Setup) (watchers : Watchers) (nesting : Nat) (steps : List Step) :
    List Element :=
  match (Keeper.start setup.settings setup.source watchers nesting).run World.answer setup.world with
  | (.ok (.finished k), w) =>
    element (.push k.lastPush) (some (.keeper k)) w :: takeSteps (.keeper k) (clear w) steps
  | (.ok (.stopped _), w) => [element .stopped none w]
  | (.error failure, w) => [element (.failed failure) none w]

end Coverage.Scenario
