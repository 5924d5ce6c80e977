import Coverage.Proofs.Dialogue
import Coverage.Scenario.World
/-!
What passes over the observers do, read off their exchanges. The trace of a pass is the trace of a tree:
the calls of the pass, what each callback did, and the passes that callbacks started in between. Every
pass of the tree, however deep, calls what was registered when it started, and the set in the end is that
of the additions and removals in the order they ran.
-/

namespace Coverage

mutual

/-- One pass: its calls in their order, each with what its callback did. -/
inductive Pass where
  | nil
  | call (callback : CallbackId) (behaviour : Behaviour) (deeds : Deeds) (rest : Pass)

/-- What a callback did in one call. A pass that it starts comes before the report of that action. -/
inductive Deeds where
  | nil
  | act (action : Action) (reply : Reply) (rest : Deeds)
  | pass (inner : Pass) (action : Action) (rest : Deeds)

end

mutual

def Pass.trace : Pass → Trace
  | .nil => []
  | .call cb behaviour deeds rest => ⟨.call cb, behaviour⟩ :: (deeds.trace cb ++ rest.trace)

def Deeds.trace (cb : CallbackId) : Deeds → Trace
  | .nil => []
  | .act action reply rest => ⟨.acted cb action reply, ()⟩ :: rest.trace cb
  | .pass inner action rest => inner.trace ++ ⟨.acted cb action .done, ()⟩ :: rest.trace cb

end

def Request.OfPass : Request → Prop
  | .call _ | .acted _ _ _ => True
  | _ => False

mutual

theorem Pass.asks (pass : Pass) : ∀ exchange ∈ pass.trace, exchange.request.OfPass := by
  cases pass with
  | nil => simp [Pass.trace]
  | call cb behaviour deeds rest =>
      simp only [Pass.trace, List.forall_mem_cons, List.forall_mem_append]
      exact ⟨trivial, Deeds.asks cb deeds, Pass.asks rest⟩

theorem Deeds.asks (cb : CallbackId) (deeds : Deeds) :
    ∀ exchange ∈ deeds.trace cb, exchange.request.OfPass := by
  cases deeds with
  | nil => simp [Deeds.trace]
  | act action reply rest =>
      simp only [Deeds.trace, List.forall_mem_cons]
      exact ⟨trivial, Deeds.asks cb rest⟩
  | pass inner action rest =>
      simp only [Deeds.trace, List.forall_mem_cons, List.forall_mem_append]
      exact ⟨Pass.asks inner, trivial, Deeds.asks cb rest⟩

end

def Pass.called : Pass → List CallbackId
  | .nil => []
  | .call cb _ _ rest => cb :: rest.called

mutual

/-- Each callback does what its behaviour says, and starts a pass wherever it notifies and passes may
still nest so deep. -/
def Pass.Lawful (depth : Nat) : Pass → Prop
  | .nil => True
  | .call _ behaviour deeds rest => deeds.Lawful depth behaviour ∧ rest.Lawful depth

def Deeds.Lawful (depth : Nat) : Behaviour → Deeds → Prop
  | .stop, .nil => True
  | .act action next, .act action' reply rest =>
    action' = action ∧ (action.effect = .notify → depth = 0) ∧ rest.Lawful depth (next reply)
  | .act action next, .pass inner action' rest =>
    action' = action ∧ action.effect = .notify ∧ 0 < depth ∧ inner.Lawful (depth - 1) ∧
      rest.Lawful depth (next .done)
  | _, _ => False

end

/-- A pass within a longer trace: the exchanges before it started and the callbacks it called itself. -/
structure PassRecord where
  before : Trace
  called : List CallbackId

mutual

def Pass.nested (before : Trace) : Pass → List PassRecord
  | .nil => []
  | .call cb behaviour deeds rest =>
    deeds.nested cb (before ++ [⟨.call cb, behaviour⟩]) ++
      rest.nested (before ++ ⟨.call cb, behaviour⟩ :: deeds.trace cb)

def Deeds.nested (cb : CallbackId) (before : Trace) : Deeds → List PassRecord
  | .nil => []
  | .act action reply rest => rest.nested cb (before ++ [⟨.acted cb action reply, ()⟩])
  | .pass inner action rest =>
    ⟨before, inner.called⟩ :: inner.nested before ++
      rest.nested cb (before ++ inner.trace ++ [⟨.acted cb action .done, ()⟩])

end

def Pass.records (pass : Pass) : List PassRecord := ⟨[], pass.called⟩ :: pass.nested []

def NoCall (trace : Trace) : Prop :=
  ∀ cb behaviour later, trace ≠ ⟨.call cb, behaviour⟩ :: later

theorem noCall_acted (cb : CallbackId) (action : Action) (reply : Reply) (later : Trace) :
    NoCall (⟨.acted cb action reply, ()⟩ :: later) := by
  intro other behaviour rest same
  have heads := congrArg Exchange.request (List.cons.inj same).1
  cases heads

mutual

theorem Pass.eq_of_trace_append {depth : Nat} (first second : Pass) {rest rest' : Trace}
    (lawful : first.Lawful depth) (lawful' : second.Lawful depth) (ended : NoCall rest)
    (ended' : NoCall rest') (same : first.trace ++ rest = second.trace ++ rest') :
    first = second ∧ rest = rest' := by
  cases first with
  | nil =>
      cases second with
      | nil => exact ⟨rfl, same⟩
      | call cb behaviour deeds later => exact absurd same (ended cb behaviour _)
  | call cb behaviour deeds later =>
      cases second with
      | nil => exact absurd same.symm (ended' cb behaviour _)
      | call cb' behaviour' deeds' later' =>
          obtain ⟨heads, tails⟩ := List.cons.inj same
          obtain ⟨requests, answers⟩ := Exchange.mk.inj heads
          cases requests
          cases answers
          simp only [List.append_eq, List.append_assoc] at tails
          obtain ⟨sameDeeds, tails⟩ :=
            Deeds.eq_of_trace_append deeds deeds' lawful.1 lawful'.1 tails
          obtain ⟨sameLater, rests⟩ :=
            Pass.eq_of_trace_append later later' lawful.2 lawful'.2 ended ended' tails
          exact ⟨by rw [sameDeeds, sameLater], rests⟩

theorem Deeds.eq_of_trace_append {depth : Nat} {cb : CallbackId} {behaviour : Behaviour}
    (first second : Deeds) {rest rest' : Trace} (lawful : first.Lawful depth behaviour)
    (lawful' : second.Lawful depth behaviour)
    (same : first.trace cb ++ rest = second.trace cb ++ rest') :
    first = second ∧ rest = rest' := by
  cases behaviour with
  | stop =>
      cases first with
      | nil =>
          cases second with
          | nil => exact ⟨rfl, same⟩
          | act | pass => exact lawful'.elim
      | act | pass => exact lawful.elim
  | act action next =>
      cases first with
      | nil => exact lawful.elim
      | act performed reply later =>
          obtain ⟨rfl, shallow, lawful⟩ := lawful
          cases second with
          | nil => exact lawful'.elim
          | pass inner other later' =>
              obtain ⟨-, notifies, deep, -⟩ := lawful'
              exact absurd (shallow notifies) (Nat.ne_of_gt deep)
          | act performed' reply' later' =>
              obtain ⟨rfl, -, lawful'⟩ := lawful'
              obtain ⟨heads, tails⟩ := List.cons.inj same
              obtain ⟨requests, -⟩ := Exchange.mk.inj heads
              cases requests
              obtain ⟨sameLater, rests⟩ :=
                Deeds.eq_of_trace_append later later' lawful lawful' tails
              exact ⟨by rw [sameLater], rests⟩
      | pass inner performed later =>
          obtain ⟨rfl, notifies, deep, innerLawful, lawful⟩ := lawful
          cases second with
          | nil => exact lawful'.elim
          | act performed' reply' later' =>
              exact absurd (lawful'.2.1 notifies) (Nat.ne_of_gt deep)
          | pass inner' performed' later' =>
              obtain ⟨rfl, -, -, innerLawful', lawful'⟩ := lawful'
              simp only [Deeds.trace, List.append_assoc, List.cons_append] at same
              obtain ⟨sameInner, tails⟩ := Pass.eq_of_trace_append inner inner' innerLawful
                innerLawful' (noCall_acted cb _ _ _) (noCall_acted cb _ _ _) same
              obtain ⟨sameLater, rests⟩ :=
                Deeds.eq_of_trace_append later later' lawful lawful' (List.cons.inj tails).2
              exact ⟨by rw [sameInner, sameLater], rests⟩

end

theorem Pass.trace_injective {depth : Nat} {first second : Pass} (lawful : first.Lawful depth)
    (lawful' : second.Lawful depth) (same : first.trace = second.trace) : first = second := by
  have ended : NoCall [] := by
    intro cb behaviour later empty
    cases empty
  exact (Pass.eq_of_trace_append first second lawful lawful' ended ended (by rw [same])).1

namespace Observers

/-- The set after an effect. An addition comes last, unless the callback is there; nothing else but a
removal changes the set. -/
def after (o : Observers) : Effect → Observers
  | .add cb => if cb ∈ o.callbacks then o else ⟨o.callbacks ++ [cb]⟩
  | .remove cb => ⟨o.callbacks.erase cb⟩
  | .contains _ | .size | .notify | .nothing => o

theorem add_eq_after (o : Observers) (cb : CallbackId) : (o.add cb).1 = o.after (.add cb) := by
  simp only [add, after]
  by_cases present : cb ∈ o.callbacks
  · rw [if_pos (contains_iff.mpr present), if_pos present]
  · rw [if_neg (mt contains_iff.mp present), if_neg present]

theorem remove_eq_after (o : Observers) (cb : CallbackId) :
    (o.remove cb).1 = o.after (.remove cb) := by
  simp only [remove, after]
  by_cases present : cb ∈ o.callbacks
  · rw [if_pos (contains_iff.mpr present)]
  · rw [if_neg (mt contains_iff.mp present), List.erase_of_not_mem present]

def afterExchange (o : Observers) (exchange : Exchange Request Request.Answer) : Observers :=
  match exchange.request with
  | .acted _ action _ => o.after action.effect
  | _ => o

def replay (o : Observers) (trace : Trace) : Observers := trace.foldl afterExchange o

theorem replay_append (o : Observers) (first later : Trace) :
    o.replay (first ++ later) = (o.replay first).replay later :=
  List.foldl_append

theorem replay_acted (o : Observers) (cb : CallbackId) (action : Action) (reply : Reply)
    (later : Trace) :
    o.replay (⟨.acted cb action reply, ()⟩ :: later) = (o.after action.effect).replay later :=
  rfl

theorem replay_call (o : Observers) (cb : CallbackId) (behaviour : Behaviour) (later : Trace) :
    o.replay (⟨.call cb, behaviour⟩ :: later) = o.replay later :=
  rfl

theorem nodup_after {o : Observers} (distinct : o.callbacks.Nodup) (effect : Effect) :
    (o.after effect).callbacks.Nodup := by
  cases effect with
  | add cb =>
      rw [← add_eq_after]
      exact nodup_add distinct cb
  | remove cb =>
      rw [← remove_eq_after]
      exact nodup_remove distinct cb
  | contains | size | notify | nothing => exact distinct

theorem nodup_replay {o : Observers} (distinct : o.callbacks.Nodup) (trace : Trace) :
    (o.replay trace).callbacks.Nodup := by
  induction trace generalizing o with
  | nil => exact distinct
  | cons exchange later ih =>
      have next : (o.afterExchange exchange).callbacks.Nodup := by
        unfold afterExchange
        split
        · exact nodup_after distinct _
        · exact distinct
      exact ih next

def effects (trace : Trace) : List Effect :=
  trace.filterMap fun exchange =>
    match exchange.request with
    | .acted _ action _ => some action.effect
    | _ => none

def afterAll (o : Observers) (done : List Effect) : Observers := done.foldl after o

theorem replay_eq_afterAll (o : Observers) (trace : Trace) : o.replay trace = o.afterAll (effects trace) := by
  induction trace generalizing o with
  | nil => rfl
  | cons exchange later ih =>
      obtain ⟨request, answer⟩ := exchange
      cases request <;> exact ih _

/-- The callback was added, or has been there from the start, and no removal came after that. -/
def Remains (cb : CallbackId) (present : Prop) (done : List Effect) : Prop :=
  present ∧ .remove cb ∉ done ∨ ∃ before later, done = before ++ .add cb :: later ∧ .remove cb ∉ later

theorem remains_cons {cb : CallbackId} {present : Prop} {effect : Effect} {done : List Effect} :
    Remains cb present (effect :: done) ↔
      Remains cb (effect = .add cb ∨ present ∧ effect ≠ .remove cb) done := by
  constructor
  · rintro (⟨there, kept⟩ | ⟨before, later, same, kept⟩)
    · rw [List.mem_cons, not_or] at kept
      exact .inl ⟨.inr ⟨there, Ne.symm kept.1⟩, kept.2⟩
    · rcases List.cons_eq_append_iff.mp same with ⟨_, same⟩ | ⟨rest, _, same⟩
      · obtain ⟨added, rfl⟩ := List.cons.inj same.symm
        exact .inl ⟨.inl added, kept⟩
      · exact .inr ⟨rest, later, same, kept⟩
  · rintro (⟨added | ⟨there, other⟩, kept⟩ | ⟨before, later, rfl, kept⟩)
    · exact .inr ⟨[], done, by rw [added]; rfl, kept⟩
    · exact .inl ⟨there, List.not_mem_cons_of_ne_of_not_mem (Ne.symm other) kept⟩
    · exact .inr ⟨effect :: before, later, rfl, kept⟩

theorem mem_after {o : Observers} (distinct : o.callbacks.Nodup) {effect : Effect} {cb : CallbackId} :
    cb ∈ (o.after effect).callbacks ↔ effect = .add cb ∨ cb ∈ o.callbacks ∧ effect ≠ .remove cb := by
  cases effect with
  | add other =>
      by_cases present : other ∈ o.callbacks
      · simp only [after, if_pos present, Effect.add.injEq]
        grind
      · simp only [after, if_neg present, Effect.add.injEq]
        grind
  | remove other =>
      simp only [after, distinct.mem_erase_iff]
      grind
  | contains | size | notify | nothing => simp [after]

/-- A callback is registered in the end exactly if it was added, or registered before, and not removed
after that. -/
theorem mem_afterAll {o : Observers} (distinct : o.callbacks.Nodup) (done : List Effect)
    (cb : CallbackId) : cb ∈ (o.afterAll done).callbacks ↔ Remains cb (cb ∈ o.callbacks) done := by
  induction done generalizing o with
  | nil => simp [afterAll, Remains]
  | cons effect rest ih =>
      have next := nodup_after distinct effect
      rw [remains_cons, ← mem_after distinct]
      exact ih next

/-- Callbacks that are never removed keep their places, before all that are added. -/
theorem prefix_afterAll {o : Observers} (distinct : o.callbacks.Nodup) (done : List Effect) :
    o.callbacks.filter (.remove · ∉ done) <+: (o.afterAll done).callbacks := by
  induction done generalizing o with
  | nil =>
      have all : o.callbacks.filter (Effect.remove · ∉ []) = o.callbacks :=
        List.filter_eq_self.mpr (by simp)
      rw [all]
      exact List.prefix_rfl
  | cons effect rest ih =>
      have here : o.callbacks.filter (.remove · ∉ effect :: rest) <+:
          (o.after effect).callbacks.filter (.remove · ∉ rest) := by
        cases effect with
        | add cb =>
            by_cases present : cb ∈ o.callbacks
            · simp [after, present]
            · simp [after, present]
        | remove cb =>
            have same : o.callbacks.filter (.remove · ∉ Effect.remove cb :: rest) =
                (o.callbacks.erase cb).filter (.remove · ∉ rest) := by
              rw [distinct.erase_eq_filter, List.filter_filter]
              apply List.filter_congr
              grind
            rw [same]
            exact List.prefix_rfl
        | contains | size | notify | nothing => simp [after]
      exact here.trans (ih (nodup_after distinct effect))

def Exact (o : Observers) (records : List PassRecord) : Prop :=
  ∀ record ∈ records, record.called = (o.replay record.before).callbacks

theorem exact_append {o : Observers} {first later : List PassRecord} (hf : o.Exact first)
    (hl : o.Exact later) : o.Exact (first ++ later) := by
  intro record member
  rcases List.mem_append.mp member with member | member
  · exact hf record member
  · exact hl record member

def nestedPass : Nat → Option (Observers → Dialogue Observers)
  | 0 => none
  | depth + 1 => some (notify depth)

theorem notify_eq_callAll (depth : Nat) (o : Observers) :
    o.notify depth = callAll (nestedPass depth) o.callbacks o := by
  cases depth <;> rfl

/-- A trace is that of a tree which leads from one set to another, and each pass nested in the tree is
exact, wherever in a longer trace it stands. -/
structure Explains (o o' : Observers) (nested : Trace → List PassRecord) (trace : Trace) : Prop where
  final : o' = o.replay trace
  exact : ∀ whole before, o = replay whole before → whole.Exact (nested before)

/-- Every run of the pass is that of a lawful tree which calls what is registered at its start. -/
def Faithful (depth : Nat) (pass : Observers → Dialogue Observers) : Prop :=
  ∀ o trace o', (pass o).Yields trace o' → ∃ tree : Pass, tree.trace = trace ∧ tree.Lawful depth ∧
    tree.called = o.callbacks ∧ o.Explains o' tree.nested trace

theorem carryOut_plain (nested : Option (Observers → Dialogue Observers)) (effect : Effect)
    (o : Observers) (plain : effect = .notify → nested = none) :
    ∃ reply, carryOut nested effect o = .done (o.after effect, reply) := by
  cases effect with
  | notify =>
      rw [plain rfl]
      exact ⟨.none, rfl⟩
  | add cb =>
      rw [← add_eq_after]
      exact ⟨_, rfl⟩
  | remove cb =>
      rw [← remove_eq_after]
      exact ⟨_, rfl⟩
  | contains | size | nothing => exact ⟨_, rfl⟩

theorem explains_act {o mid o' : Observers} {cb : CallbackId} {action : Action} {reply : Reply}
    {deeds : Deeds} {trace : Trace} (same : mid = o.after action.effect)
    (rest : mid.Explains o' (deeds.nested cb) trace) :
    o.Explains o' ((Deeds.act action reply deeds).nested cb)
      (⟨.acted cb action reply, ()⟩ :: trace) := by
  subst same
  constructor
  · exact rest.final
  · intro whole before start
    apply rest.exact
    rw [replay_append, ← start]
    rfl

theorem explains_pass {o mid o' : Observers} {cb : CallbackId} {action : Action} {tree : Pass}
    {deeds : Deeds} {passed trace : Trace} (notifies : action.effect = .notify)
    (traced : tree.trace = passed) (called : tree.called = o.callbacks)
    (inner : o.Explains mid tree.nested passed) (rest : mid.Explains o' (deeds.nested cb) trace) :
    o.Explains o' ((Deeds.pass tree action deeds).nested cb)
      (passed ++ ⟨.acted cb action .done, ()⟩ :: trace) := by
  have unchanged : mid.after action.effect = mid := by
    rw [notifies]
    rfl
  constructor
  · rw [replay_append, replay_acted, ← inner.final, unchanged]
    exact rest.final
  · intro whole before start
    rw [Deeds.nested, traced]
    apply exact_append
    · intro record member
      rcases List.mem_cons.mp member with same | member
      · rw [same, called, start]
      · exact inner.exact whole before start record member
    · apply rest.exact
      rw [replay_append, replay_append, ← start, ← inner.final]
      exact unchanged.symm

theorem explains_call {o mid o' : Observers} {cb : CallbackId} {behaviour : Behaviour}
    {deeds : Deeds} {tree : Pass} {done trace : Trace} (traced : deeds.trace cb = done)
    (call : o.Explains mid (deeds.nested cb) done) (rest : mid.Explains o' tree.nested trace) :
    o.Explains o' (Pass.call cb behaviour deeds tree).nested
      (⟨.call cb, behaviour⟩ :: (done ++ trace)) := by
  constructor
  · rw [replay_call, replay_append, ← call.final]
    exact rest.final
  · intro whole before start
    rw [Pass.nested, traced]
    apply exact_append
    · apply call.exact
      rw [replay_append, ← start]
      rfl
    · apply rest.exact
      rw [replay_append, ← start, replay_call]
      exact call.final

section

variable {depth : Nat} (inner : ∀ below, depth = below + 1 → Faithful below (notify below))

include inner

theorem yields_perform {cb : CallbackId} (behaviour : Behaviour) :
    ∀ o trace o', (perform (nestedPass depth) cb behaviour o).Yields trace o' →
      ∃ deeds : Deeds, deeds.trace cb = trace ∧ deeds.Lawful depth behaviour ∧
        o.Explains o' (deeds.nested cb) trace := by
  induction behaviour with
  | stop =>
      intro o trace o' performed
      obtain ⟨empty, same⟩ := Program.yields_done.mp performed
      subst empty same
      refine ⟨.nil, rfl, trivial, rfl, ?_⟩
      intro whole before start record member
      cases member
  | act action next ih =>
      intro o trace o' performed
      obtain ⟨first, ⟨mid, reply⟩, later, rfl, carried, reporting⟩ :=
        Dialogue.yields_bind.mp performed
      obtain ⟨reported, last, rfl, rest⟩ := Dialogue.yields_ask_bind.mp reporting
      obtain ⟨deeds, traced, lawful, explained⟩ := ih reply mid last o' rest
      -- the action starts a pass exactly if it notifies where passes may still nest
      by_cases nests : action.effect = .notify ∧ 0 < depth
      · obtain ⟨notifies, deep⟩ := nests
        obtain ⟨below, rfl⟩ := Nat.exists_eq_succ_of_ne_zero (Nat.ne_of_gt deep)
        rw [notifies] at carried
        obtain ⟨set, ran, same⟩ := Dialogue.yields_bind_pure.mp carried
        obtain ⟨rfl, rfl⟩ := Prod.mk.inj same
        obtain ⟨tree, treeTraced, treeLawful, called, treeExplained⟩ :=
          inner below rfl o first mid ran
        refine ⟨.pass tree action deeds, ?_, ⟨rfl, notifies, deep, treeLawful, lawful⟩,
          explains_pass notifies treeTraced called treeExplained explained⟩
        rw [Deeds.trace, treeTraced, traced]
        rfl
      · have shallow (notifies : action.effect = .notify) : depth = 0 :=
          Nat.eq_zero_of_not_pos fun deep => nests ⟨notifies, deep⟩
        have plain (notifies : action.effect = .notify) : nestedPass depth = none := by
          rw [shallow notifies]
          rfl
        obtain ⟨given, done⟩ := carryOut_plain (nestedPass depth) action.effect o plain
        rw [done] at carried
        obtain ⟨empty, same⟩ := Program.yields_done.mp carried
        obtain ⟨changed, -⟩ := Prod.mk.inj same
        subst empty
        refine ⟨.act action reply deeds, ?_, ⟨rfl, shallow, lawful⟩, explains_act changed explained⟩
        rw [Deeds.trace, traced]
        rfl

theorem yields_callAll (callbacks : List CallbackId) :
    ∀ o trace o', (callAll (nestedPass depth) callbacks o).Yields trace o' →
      ∃ tree : Pass, tree.trace = trace ∧ tree.Lawful depth ∧ tree.called = callbacks ∧
        o.Explains o' tree.nested trace := by
  induction callbacks with
  | nil =>
      intro o trace o' ran
      obtain ⟨empty, same⟩ := Program.yields_done.mp ran
      subst empty same
      refine ⟨.nil, rfl, trivial, rfl, rfl, ?_⟩
      intro whole before start record member
      cases member
  | cons cb callbacks ih =>
      intro o trace o' ran
      obtain ⟨behaviour, rest, rfl, running⟩ := Dialogue.yields_ask_bind.mp ran
      obtain ⟨done, mid, later, rfl, performed, calling⟩ := Dialogue.yields_bind.mp running
      obtain ⟨deeds, traced, lawful, call⟩ := yields_perform inner behaviour o done mid performed
      obtain ⟨tree, treeTraced, treeLawful, called, explained⟩ := ih mid later o' calling
      refine ⟨.call cb behaviour deeds tree, ?_, ⟨lawful, treeLawful⟩, ?_, ?_⟩
      · show ⟨.call cb, behaviour⟩ :: (deeds.trace cb ++ tree.trace) = _
        rw [traced, treeTraced]
      · exact congrArg (cb :: ·) called
      · exact explains_call traced call explained

end

theorem faithful_notify (depth : Nat) : Faithful depth (notify depth) := by
  induction depth with
  | zero =>
      intro o trace o' ran
      rw [notify_eq_callAll] at ran
      exact yields_callAll (fun below same => absurd same (Nat.succ_ne_zero below).symm) _ o trace o' ran
  | succ depth ih =>
      intro o trace o' ran
      rw [notify_eq_callAll] at ran
      exact yields_callAll (fun below same => Nat.succ.inj same ▸ ih) _ o trace o' ran

/-- What one pass came to: its exchanges are those of this tree, and they led from one set to another. -/
structure Carried (depth : Nat) (o o' : Observers) (trace : Trace) (pass : Pass) : Prop where
  lawful : pass.Lawful depth
  traced : pass.trace = trace
  unique : ∀ other : Pass, other.Lawful depth → other.trace = trace → other = pass
  /-- Each pass of the tree calls the callbacks that were registered when it started, in their order. -/
  called : ∀ record ∈ pass.records, record.called = (o.replay record.before).callbacks
  /-- No pass calls a callback twice. -/
  once : o.callbacks.Nodup → ∀ record ∈ pass.records, record.called.Nodup
  /-- What was removed before a pass started is not called in it, unless it was added again. -/
  calls_iff : o.callbacks.Nodup → ∀ record ∈ pass.records, ∀ cb,
    cb ∈ record.called ↔ Remains cb (cb ∈ o.callbacks) (effects record.before)
  final : o' = o.replay trace
  remains_iff : o.callbacks.Nodup → ∀ cb,
    cb ∈ o'.callbacks ↔ Remains cb (cb ∈ o.callbacks) (effects trace)
  kept : o.callbacks.Nodup →
    o.callbacks.filter (.remove · ∉ effects trace) <+: o'.callbacks

/-- Whatever the surroundings answer, the trace of a pass is that of exactly one lawful tree. Each pass of
the tree calls once and in their order the callbacks that were registered when it started, and the set in
the end is that of the additions and removals of the whole trace. The pass that starts next calls just
these, whatever the surroundings answer then. -/
theorem notify_exact (depth : Nat) (o : Observers) {σ : Type}
    (handle : (r : Request) → σ → r.Answer × σ) (s : σ) :
    (∃ pass, Carried depth o ((o.notify depth).run handle s).1 ((o.notify depth).record handle s) pass) ∧
      ∀ (depth' : Nat) (τ : Type) (handle' : (r : Request) → τ → r.Answer × τ) (t : τ),
        let left := ((o.notify depth).run handle s).1
        ∃ next : Pass, next.Lawful depth' ∧ next.trace = (left.notify depth').record handle' t ∧
          next.called = left.callbacks := by
  constructor
  · obtain ⟨pass, traced, lawful, called, explained⟩ :=
      faithful_notify depth o _ _ (Program.yields_record handle (o.notify depth) s)
    have exact : o.Exact pass.records := by
      intro record member
      rcases List.mem_cons.mp member with same | member
      · rw [same]
        exact called
      · exact explained.exact o [] rfl record member
    refine ⟨pass, lawful, traced, ?_, exact, ?_, ?_, explained.final, ?_, ?_⟩
    · intro other otherLawful same
      exact Pass.trace_injective otherLawful lawful (same.trans traced.symm)
    · intro distinct record member
      rw [exact record member]
      exact nodup_replay distinct record.before
    · intro distinct record member cb
      rw [exact record member, replay_eq_afterAll]
      exact mem_afterAll distinct _ cb
    · intro distinct cb
      rw [explained.final, replay_eq_afterAll]
      exact mem_afterAll distinct _ cb
    · intro distinct
      rw [explained.final, replay_eq_afterAll]
      exact prefix_afterAll distinct _
  · intro depth' τ handle' t left
    obtain ⟨next, traced, lawful, called, -⟩ :=
      faithful_notify depth' left _ _ (Program.yields_record handle' (left.notify depth') t)
    exact ⟨next, lawful, traced, called⟩

def pair : Observers := ⟨["first", "second"]⟩

def rearrangingWorld : Scenario.World where
  now := Deadline.latest
  consumer := none
  scripts := [("first", [⟨.remove "second", .null⟩, ⟨.add "third", .null⟩, ⟨.notify, .null⟩])]

def rearranged : Pass :=
  .call "first" (.ofScript (rearrangingWorld.script "first"))
    (.act ⟨.remove "second", .null⟩ (.flag false)
      (.act ⟨.add "third", .null⟩ (.flag false) (.act ⟨.notify, .null⟩ .none .nil)))
    (.call "third" .stop .nil .nil)

def rearranging : Pass :=
  .call "first" (.ofScript (rearrangingWorld.script "first"))
    (.act ⟨.remove "second", .null⟩ (.flag true)
      (.act ⟨.add "third", .null⟩ (.flag true) (.pass rearranged ⟨.notify, .null⟩ .nil)))
    (.call "second" .stop .nil .nil)

theorem notify_exact_rearranged :
    Carried 1 pair ⟨["first", "third"]⟩
        ((pair.notify 1).record Scenario.World.answer rearrangingWorld) rearranging ∧
      rearranging.records.map (·.called) = [["first", "second"], ["first", "third"]] ∧
      ¬Remains "second" ("second" ∈ pair.callbacks) (effects rearranging.trace) ∧
      ∃ next : Pass, next.trace =
          (Observers.notify 0 ⟨["first", "third"]⟩).record Scenario.World.answer rearrangingWorld ∧
        next.called = ["first", "third"] := by
  obtain ⟨⟨pass, carried⟩, later⟩ := notify_exact 1 pair Scenario.World.answer rearrangingWorld
  have distinct : pair.callbacks.Nodup := by decide
  have inner : rearranged.Lawful 0 :=
    ⟨⟨rfl, nofun, rfl, nofun, rfl, fun _ => rfl, trivial⟩, trivial, trivial⟩
  have lawful : rearranging.Lawful 1 :=
    ⟨⟨rfl, nofun, rfl, nofun, rfl, rfl, Nat.one_pos, inner, trivial⟩, trivial, trivial⟩
  have same : rearranging = pass := carried.unique rearranging lawful rfl
  subst same
  have ⟨next, _, traced, called⟩ := later 0 _ Scenario.World.answer rearrangingWorld
  refine ⟨carried, rfl, ?_, next, traced, called⟩
  intro remains
  rw [carried.traced] at remains
  have still := (carried.remains_iff distinct "second").mpr remains
  exact absurd still (by decide)

end Observers

end Coverage
