import Coverage.Proofs.LastPush
import Coverage.Proofs.Registration
/-!
What is registered at every moment. Between operations a set of observers is all there is; while a pass
is under way it is what the rest of the pass goes on from, below any number of callbacks that wait for it.
Every exchange either leaves the set alone or does to it what the reply says.
-/

namespace Coverage

open Chronicle

namespace Observers

/-- A callback that waits for the pass it has started. When that has ended the action is reported, and then
the callback goes on, and its own pass with the callbacks that are still to be called. -/
structure Waiting where
  callback : CallbackId
  action : Action
  notifies : action.effect = .notify
  left : Behaviour
  pending : List CallbackId
  room : Nat

/-- How far a pass has come, with the callbacks that wait for it, the innermost first. -/
inductive Stage where
  | between (pending : List CallbackId) (room : Nat) (outer : List Waiting)
  | during (callback : CallbackId) (left : Behaviour) (pending : List CallbackId) (room : Nat)
      (outer : List Waiting)

def Stage.idle : Stage := between [] 0 []

def resume : List Waiting → Observers → Dialogue Observers
  | [], o => .done o
  | w :: outer, o => do
    Dialogue.ask (.acted w.callback w.action .done)
    let o ← perform (nestedPass w.room) w.callback w.left o
    let o ← callAll (nestedPass w.room) w.pending o
    resume outer o

def Stage.rest : Stage → Observers → Dialogue Observers
  | between pending room outer, o => do
    let o ← callAll (nestedPass room) pending o
    resume outer o
  | during cb left pending room outer, o => do
    let o ← perform (nestedPass room) cb left o
    let o ← callAll (nestedPass room) pending o
    resume outer o

/-- The reply to an effect is that of the set; a pass that could be nested has been made. -/
def Told (o : Observers) (effect : Effect) (reply : Reply) : Prop :=
  carryOut none effect o = .done (o.after effect, reply) ∨ effect = .notify ∧ reply = .done

theorem notify_eq_rest (depth : Nat) (o : Observers) :
    o.notify depth = (Stage.between o.callbacks depth []).rest o := by
  rw [notify_eq_callAll]
  exact (Program.andThen_done _).symm

/-- A pass that a callback starts is one more for which a callback waits. -/
theorem rest_during_notify (cb : CallbackId) (o : Observers) {action : Action}
    (notifies : action.effect = .notify) (later : Reply → Behaviour) (pending : List CallbackId)
    (room : Nat) (outer : List Waiting) :
    (Stage.during cb (.act action later) pending (room + 1) outer).rest o =
      (Stage.between o.callbacks room
        (⟨cb, action, notifies, later .done, pending, room + 1⟩ :: outer)).rest o := by
  have carried : Observers.carryOut (nestedPass (room + 1)) action.effect o =
      (o.notify room).andThen fun o => .done (o, .done) := by
    rw [notifies]
    rfl
  simp only [Stage.rest, perform, carried, Program.bind_eq_andThen, Program.andThen_assoc,
    notify_eq_callAll]
  rfl

theorem rest_during_plain (cb : CallbackId) (o : Observers) {action : Action} {room : Nat}
    (plain : action.effect = .notify → room = 0) (later : Reply → Behaviour)
    (pending : List CallbackId) (outer : List Waiting) :
    ∃ reply, carryOut none action.effect o = .done (o.after action.effect, reply) ∧
      (Stage.during cb (.act action later) pending room outer).rest o =
        Program.ask (.acted cb action reply) fun _ =>
          (Stage.during cb (later reply) pending room outer).rest (o.after action.effect) := by
  obtain ⟨reply, carried⟩ := carryOut_plain none action.effect o fun _ => rfl
  have alone : carryOut (nestedPass room) action.effect o = carryOut none action.effect o := by
    cases effect : action.effect with
    | notify =>
        rw [plain effect]
        rfl
    | add | remove | contains | size | nothing => rfl
  refine ⟨reply, carried, ?_⟩
  simp only [Stage.rest, perform, alone, carried]
  rfl

/-- The program goes on from this set: it has come to it, or it asks for a call or reports an action with
the reply of the set, and then goes on from what the set is after the action. -/
def Continues (o : Observers) : Dialogue Observers → Prop
  | Program.done o' => o' = o
  | Program.ask r next =>
    (∀ answer, ∃ stage : Stage, next answer = stage.rest (o.afterExchange ⟨r, answer⟩)) ∧
      ((∃ cb, r = .call cb) ∨
        ∃ cb action reply, r = .acted cb action reply ∧ o.Told action.effect reply)

theorem rest_between_cons (cb : CallbackId) (pending : List CallbackId) (room : Nat)
    (outer : List Waiting) (o : Observers) : (Stage.between (cb :: pending) room outer).rest o =
      Program.ask (.call cb) fun behaviour => (Stage.during cb behaviour pending room outer).rest o := by
  refine congrArg (Program.ask (Request.call cb)) (funext fun behaviour => ?_)
  exact Program.andThen_assoc (perform (nestedPass room) cb behaviour o)
    (callAll (nestedPass room) pending) (resume outer)

theorem continues_between (pending : List CallbackId) (room : Nat) (outer : List Waiting)
    (o : Observers) : o.Continues ((Stage.between pending room outer).rest o) := by
  cases pending with
  | cons cb pending =>
      rw [rest_between_cons]
      exact ⟨fun behaviour => ⟨_, rfl⟩, .inl ⟨cb, rfl⟩⟩
  | nil =>
      cases outer with
      | nil => exact rfl
      | cons w outer =>
          have unchanged : o.after w.action.effect = o := by
            rw [w.notifies]
            rfl
          refine ⟨fun _ => ⟨.during w.callback w.left w.pending w.room outer, ?_⟩,
            .inr ⟨w.callback, w.action, .done, rfl, .inr ⟨w.notifies, rfl⟩⟩⟩
          show _ = Stage.rest _ (o.after w.action.effect)
          rw [unchanged]
          rfl

theorem Stage.continues (stage : Stage) (o : Observers) : o.Continues (stage.rest o) := by
  cases stage with
  | between pending room outer => exact continues_between pending room outer o
  | during cb left pending room outer =>
      cases left with
      | stop => exact continues_between pending room outer o
      | act action later =>
          by_cases nests : action.effect = .notify ∧ room ≠ 0
          · obtain ⟨notifies, deep⟩ := nests
            obtain ⟨below, rfl⟩ := Nat.exists_eq_succ_of_ne_zero deep
            rw [rest_during_notify cb o notifies]
            exact continues_between _ _ _ o
          · have plain (notifies : action.effect = .notify) : room = 0 :=
              not_not.mp fun deep => nests ⟨notifies, deep⟩
            obtain ⟨reply, carried, same⟩ := rest_during_plain cb o plain later pending outer
            rw [same]
            exact ⟨fun _ => ⟨_, rfl⟩, .inr ⟨cb, action, reply, rfl, .inl carried⟩⟩

theorem Stage.eq_of_done {stage : Stage} {o o' : Observers} (ended : .done o' = stage.rest o) :
    o' = o := by
  have continues := stage.continues o
  rw [← ended] at continues
  exact continues

def entries : Exchange Request Request.Answer → Chronicle
  | ⟨.acted _ action reply, _⟩ => [(action.effect, reply)]
  | _ => []

/-- Every moment of a set of observers: what has been done to it so far, and what remains to be done. It is
used by operations and by passes, and in a pass the callbacks do as the surroundings say. -/
inductive Life : Chronicle → Dialogue Observers → Prop where
  | new : Life [] (.done {})
  | operation {h : Chronicle} {o o' : Observers} {effect : Effect} {reply : Reply}
      (before : Life h (.done o)) (carried : carryOut none effect o = .done (o', reply)) :
      Life (h ++ [(effect, reply)]) (.done o')
  | notify {h : Chronicle} {o : Observers} (before : Life h (.done o)) (depth : Nat) :
      Life h (o.notify depth)
  | exchange {h : Chronicle} {r : Request} {next : r.Answer → Dialogue Observers}
      (before : Life h (Program.ask r next)) (answer : r.Answer) :
      Life (h ++ entries ⟨r, answer⟩) (next answer)

end Observers

theorem OrderedSet.told {h : Chronicle} {o : Observers} {effect : Effect} {reply : Reply}
    (set : OrderedSet h o) (told : o.Told effect reply) :
    OrderedSet (h ++ [(effect, reply)]) (o.after effect) := by
  rcases told with carried | ⟨rfl, rfl⟩
  · exact set.carryOut carried
  · exact set.silent (silent_of_reply (by simp))

namespace Observers

variable {h : Chronicle} {p : Dialogue Observers} {o : Observers}

theorem Life.ordered (life : Life h p) :
    ∃ (stage : Stage) (o : Observers), p = stage.rest o ∧ OrderedSet h o := by
  induction life with
  | new => exact ⟨.idle, {}, rfl, .new⟩
  | operation _ carried ih =>
      obtain ⟨stage, o, same, set⟩ := ih
      cases stage.eq_of_done same
      exact ⟨.idle, _, rfl, set.carryOut carried⟩
  | notify _ depth ih =>
      obtain ⟨stage, o, same, set⟩ := ih
      cases stage.eq_of_done same
      exact ⟨_, _, notify_eq_rest depth _, set⟩
  | exchange _ answer ih =>
      obtain ⟨stage, o, same, set⟩ := ih
      have asked := stage.continues o
      rw [← same] at asked
      obtain ⟨goes, asked⟩ := asked
      obtain ⟨stage', rest⟩ := goes answer
      refine ⟨stage', _, rest, ?_⟩
      rcases asked with ⟨cb, rfl⟩ | ⟨cb, action, reply, rfl, told⟩
      · exact (List.append_nil _).symm ▸ set
      · exact set.told told

theorem Life.yields (life : Life h p) {trace : Trace} (yields : p.Yields trace o) :
    ∃ h', Life h' (.done o) := by
  induction yields generalizing h with
  | done o => exact ⟨h, life⟩
  | ask later ih => exact ih (life.exchange _)

end Observers

namespace Keeper

open Observers (Life)

variable {k k' : Keeper} {trace : Trace} {progress : Progress Keeper}

theorem Loads.observers (loads : k.Loads trace progress) : progress.state.observers = k.observers := by
  cases loads with
  | within loads => rw [Progress.state_map]

theorem PushesAgain.observers {outcome : Except Failure Push} (pushes : k.PushesAgain trace k' outcome) :
    k'.observers = k.observers := by
  cases pushes <;> rfl

theorem Refreshes.observers {source : Source} (refreshes : k.Refreshes source trace k') :
    k'.observers = k.observers := by
  cases refreshes with
  | products pushed => exact pushed.observers
  | entitlements | consumer => rfl

theorem Handles.observers {source : Source} (handles : k.Handles source trace progress) :
    progress.state.observers = k.observers := by
  cases handles with
  | loaded refreshed loaded => exact loaded.observers.trans refreshed.observers

theorem HandlesAll.observers {sources : List Source} (handles : k.HandlesAll sources trace progress) :
    progress.state.observers = k.observers := by
  induction handles with
  | nil k => rfl
  | stopped handled => exact handled.observers
  | cons handled others ih => exact ih.trans handled.observers

def Grown (k : Keeper) : Prop := ∃ h, Life h (.done k.observers)

theorem Grown.congr (grown : k.Grown) (same : k'.observers = k.observers) : k'.Grown := by
  rw [Grown, same]
  exact grown

theorem Grown.notify (grown : k.Grown) (told : k.notify.Yields trace k') : k'.Grown := by
  obtain ⟨h, life⟩ := grown
  obtain ⟨registered, afterRegistered, -, noting⟩ := Dialogue.yields_ask_bind.mp told
  obtain ⟨passing, -, rest⟩ := Dialogue.yields_note_bind.mp noting
  obtain ⟨observers, passed, rfl⟩ := Dialogue.yields_bind_pure.mp rest
  exact (life.notify k.nesting).yields passed

theorem Tells.grown {before : Progress Keeper} (tells : Tells before trace progress)
    (grown : before.state.Grown) : progress.state.Grown := by
  cases tells with
  | stopped k => exact grown
  | told told _ => exact grown.notify told

theorem Chore.grown (chore : k.Chore trace progress) (grown : k.Grown) : progress.state.Grown := by
  cases chore with
  | load loaded => exact grown.congr (yields_load.mp loaded).observers
  | onChange changed =>
      obtain ⟨loading, before, telling, -, loaded, tells⟩ := yields_onChange.mp changed
      exact tells.grown (grown.congr loaded.observers)
  | handleChange handled => exact grown.congr (yields_handleChange.mp handled).observers
  | forceCheck checked =>
      cases yields_forceCheck.mp checked with
      | unchanged none => exact grown
      | changed some handled told => exact told.grown (grown.congr handled.observers)
  | notify told => exact grown.notify told
  | query | hasEntitlements => exact grown
  | addCallback cb =>
      obtain ⟨h, life⟩ := grown
      have longer : Life (h ++ [(.add cb, _)]) (.done (k.addCallback cb).1.observers) := life.operation rfl
      exact ⟨_, longer⟩
  | removeCallback cb =>
      obtain ⟨h, life⟩ := grown
      have longer : Life (h ++ [(.remove cb, _)]) (.done (k.removeCallback cb).1.observers) :=
        life.operation rfl
      exact ⟨_, longer⟩

end Keeper

theorem History.grown {settings : Settings} {trace : Trace} {attempts : List Attempt}
    {progress : Progress Keeper} (history : History settings trace attempts progress) :
    progress.state.Grown := by
  induction history with
  | start started made =>
      generalize answer : Except.ok _ = outcome at started
      cases Keeper.starts_of_yields started with
      | failed pushes => cases answer
      | loaded pushes loaded =>
          cases answer
          rw [Keeper.Grown, Progress.state_map]
          exact ⟨[], .new⟩
  | push _ pushed _ ih => exact ih.congr (Keeper.yields_push.mp pushed).observers
  | chore _ chore _ ih => exact chore.grown ih

namespace Observers

/-- At every moment, also inside a pass and however deep passes are nested, the set from which the program
goes on holds each callback at most once, in the order of the latest successful additions, and answers as
that set; and the observers of every keeper are such a set. -/
theorem ordered_set_always :
    (∀ h p, Life h p → ∃ (stage : Stage) (o : Observers), p = stage.rest o ∧ o.Continues p ∧
      OrderedSet h o ∧ (∀ other, OrderedSet h other → other = o) ∧ o.SetLaws) ∧
    ∀ trace (progress : Progress Keeper), Run trace (progress.map .keeper) →
      ∃ h, Life h (.done progress.state.observers) := by
  constructor
  · intro h p life
    obtain ⟨stage, o, rfl, set⟩ := life.ordered
    exact ⟨stage, o, rfl, stage.continues o, set, fun _ => set.unique, setLaws set.distinct⟩
  · intro trace progress run
    obtain ⟨settings, attempts, history⟩ := run.exists_attempts
    exact history.grown

def notifying : Action := ⟨.notify, .null⟩

def readded : Stage :=
  .between ["b", "a"] 0 [⟨"a", notifying, rfl, .stop, ["b"], 1⟩]

def readding : Chronicle := [added "a", added "b", removed "a", added "a"]

theorem life_readded : Life readding (readded.rest ⟨["b", "a"]⟩) := by
  have first : Life [added "a"] (.done ⟨["a"]⟩) := Life.new.operation rfl
  have registered : Life [added "a", added "b"] (.done ⟨["a", "b"]⟩) := first.operation rfl
  have passing := registered.notify 1
  rw [notify_eq_rest, rest_between_cons] at passing
  have called := passing.exchange (.ofScript [⟨.remove "a", .null⟩, ⟨.add "a", .null⟩, notifying])
  have acting : Life readding ((Stage.during "a" (.ofScript [notifying]) ["b"] 1 []).rest ⟨["b", "a"]⟩) :=
    (called.exchange ()).exchange ()
  have notifies : notifying.effect = .notify := rfl
  exact rest_during_notify "a" ⟨["b", "a"]⟩ notifies (fun _ => .stop) ["b"] 0 [] ▸ acting

theorem ordered_set_always_readded :
    Life readding (readded.rest ⟨["b", "a"]⟩) ∧
      Run takenTrace (.finished (.keeper startedKeeper)) ∧
      (∃ (stage : Stage) (o : Observers), readded.rest ⟨["b", "a"]⟩ = stage.rest o ∧
        o.callbacks = ["b", "a"]) ∧
      ∃ h, Life h (.done startedKeeper.observers) := by
  have run : Run takenTrace ((Progress.finished startedKeeper).map .keeper) := .keeper takenTrace_yields
  obtain ⟨always, grown⟩ := ordered_set_always
  obtain ⟨stage, o, same, -, set, unique, laws⟩ := always _ _ life_readded
  have first : OrderedSet [added "a"] ⟨["a"]⟩ := OrderedSet.new.carryOut rfl
  have second : OrderedSet [added "a", added "b"] ⟨["a", "b"]⟩ := first.carryOut rfl
  have third : OrderedSet [added "a", added "b", removed "a"] ⟨["b"]⟩ := second.carryOut rfl
  have ordered : OrderedSet readding ⟨["b", "a"]⟩ := third.carryOut rfl
  exact ⟨life_readded, run, ⟨stage, o, same, by rw [← unique _ ordered]⟩, grown _ _ run⟩

end Observers

end Coverage
