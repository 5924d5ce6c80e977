import Coverage.Proofs.Attention
/-!
Polls of a directory watch, among changes to the files and with calls that may fail. The bit that the
watch keeps says after a poll only whether the directory was there, so that a poll which finds the same
again places nothing; what is heard is decided by the placements, not by the bit.
-/

namespace Coverage

abbrev WatchTrace := List (Exchange WatchRequest WatchRequest.Answer)

/-- The directory is found alike whenever it is looked for. -/
def Steady (p : Path) (present : Bool) (trace : WatchTrace) : Prop :=
  ∀ answer, ⟨.isDirectory p, answer⟩ ∈ trace → answer = present

namespace Steady

variable {p : Path} {present : Bool} {first later : WatchTrace}

theorem left (steady : Steady p present (first ++ later)) : Steady p present first :=
  fun answer member => steady answer (List.mem_append_left later member)

theorem right (steady : Steady p present (first ++ later)) : Steady p present later :=
  fun answer member => steady answer (List.mem_append_right first member)

end Steady

namespace Channel

def drained : Channel → Channel
  | nothing => nothing
  | hungUp => hungUp
  | delivery _ rest => rest.drained

theorem waiting_drained (c : Channel) : c.drained.waiting = [] := by
  induction c with
  | nothing | hungUp => rfl
  | delivery first rest ih => exact ih

theorem waiting_ofList (deliveries : List Delivery) : (ofList deliveries).waiting = deliveries := by
  induction deliveries with
  | nil => rfl
  | cons first rest ih => exact congrArg (first :: ·) ih

end Channel

namespace DirectoryWatch

open Scenario Machine

variable {fails : WatchRequest → Bool} {w w' : DirectoryWatch} {trace : WatchTrace} {present : Bool}

def IsNote (r : WatchRequest) : Prop := ∃ notice, r = .note notice

/-- Leaves the watches as they stand. -/
def Idle : WatchRequest → Prop
  | .place _ | .lift _ => False
  | _ => True

theorem idle_of_note {r : WatchRequest} (note : IsNote r) : Idle r := by
  obtain ⟨notice, rfl⟩ := note
  trivial

theorem offChannel_of_note {r : WatchRequest} (note : IsNote r) : OffChannel r := by
  obtain ⟨notice, rfl⟩ := note
  trivial

def sees (w : DirectoryWatch) (deliveries : List Delivery) : Bool :=
  deliveries.any fun delivery =>
    match delivery with
    | .event e => w.isRelevant e
    | .fault _ => false

theorem yields_ask {β : Type} {r : WatchRequest} {f : r.Answer → WatchDialogue β} {b : β} :
    ((ask r).andThen f).Yields trace b ↔
      ∃ answer later, trace = ⟨r, answer⟩ :: later ∧ (f answer).Yields later b :=
  Program.yields_ask

theorem keeps_ask {allowed : WatchRequest → Prop} {r : WatchRequest} (here : allowed r) :
    (DirectoryWatch.ask r).Keeps allowed :=
  .ask here .done

theorem keeps_receiveAll (w : DirectoryWatch) (seen : Bool) (c : Channel) :
    (w.receiveAll seen c).Keeps IsNote := by
  induction c generalizing seen with
  | nothing => exact .done _
  | hungUp => exact (keeps_ask ⟨_, rfl⟩).bind fun _ => .done _
  | delivery first rest ih =>
      cases first with
      | event e => exact ih _
      | fault detail => exact (keeps_ask ⟨_, rfl⟩).bind fun _ => ih seen

theorem keeps_noteChanged (w : DirectoryWatch) (changed : Bool) :
    (w.noteChanged changed).Keeps IsNote := by
  cases changed with
  | true => exact keeps_ask ⟨_, rfl⟩
  | false => exact .done _

theorem run_of_notes (fails : WatchRequest → Bool) {α : Type} {p : WatchDialogue α}
    (keeps : p.Keeps IsNote) (m : Machine) : ∃ notices, (p.run (answerUnless fails) m).2 = { m with notices } := by
  induction keeps generalizing m with
  | done a => exact ⟨m.notices, rfl⟩
  | ask here _ ih =>
      obtain ⟨notice, rfl⟩ := here
      exact ih () { m with notices := m.notices ++ [notice] }

theorem receiveAll_result (w : DirectoryWatch) (seen : Bool) (c : Channel) (m : Machine) :
    ((w.receiveAll seen c).run (answerUnless fails) m).1 = (seen || w.sees c.waiting, c.drained) := by
  induction c generalizing seen m with
  | nothing | hungUp => exact Prod.ext (Bool.or_false seen).symm rfl
  | delivery first rest ih =>
      cases first with
      | event e =>
          show ((w.receiveAll (seen || w.isRelevant e) rest).run (answerUnless fails) m).1 = _
          rw [ih, Bool.or_assoc]
          rfl
      | fault detail => exact ih seen _

theorem follow_of_idle {path : Path} {files : FileSystem} {latest : Option Nat}
    {trace : List (Exchange WatchRequest WatchRequest.Answer)}
    (idle : ∀ exchange ∈ trace, Idle exchange.request) : follow path files latest trace = latest := by
  induction trace with
  | nil => rfl
  | cons exchange rest ih =>
      have here := idle exchange List.mem_cons_self
      have unmoved : followOne path files latest exchange = latest := by
        obtain ⟨r, answer⟩ := exchange
        cases r with
        | place | lift => exact here.elim
        | _ => rfl
      show follow path files (followOne path files latest exchange) rest = latest
      rw [unmoved]
      exact ih fun later member => idle later (List.mem_cons_of_mem _ member)

theorem follow_of_keeps {α : Type} {p : WatchDialogue α} (keeps : p.Keeps Idle) (path : Path)
    (files : FileSystem) (latest : Option Nat) (m : Machine) :
    follow path files latest (p.record (answerUnless fails) m) = latest :=
  follow_of_idle (keeps.exchanges (Program.yields_record _ p m))

theorem idle_of_notes {α : Type} {p : WatchDialogue α} (keeps : p.Keeps IsNote) : p.Keeps Idle :=
  keeps.mono fun _ => idle_of_note

def take (w : DirectoryWatch) : WatchDialogue Bool := do
  let received ← w.receiveAll false (← ask .channel)
  ask (.leave received.2)
  return received.1

def tell (w : DirectoryWatch) (changed : Bool) : WatchDialogue (DirectoryWatch × Bool) := do
  w.noteChanged changed
  return (w, changed)

theorem poll_eq (w : DirectoryWatch) : w.poll = w.take.andThen fun seen =>
    w.rearm.andThen fun moved => moved.1.tell (seen || moved.2) := by
  show w.poll = w.take >>= fun seen => w.rearm >>= fun moved => moved.1.tell (seen || moved.2)
  simp only [take, bind_assoc]
  rfl

theorem keeps_take (w : DirectoryWatch) : w.take.Keeps Idle :=
  (keeps_ask trivial).bind fun channel => (idle_of_notes (keeps_receiveAll w false channel)).bind fun _ =>
    (keeps_ask trivial).bind fun _ => .done _

theorem keeps_tell (w : DirectoryWatch) (changed : Bool) : (w.tell changed).Keeps IsNote :=
  (keeps_noteChanged w changed).bind fun _ => .done _

theorem tell_result (w : DirectoryWatch) (changed : Bool) (m : Machine) :
    ((w.tell changed).run (answerUnless fails) m).1 = (w, changed) := by
  cases changed <;> rfl

theorem run_take (fails : WatchRequest → Bool) (w : DirectoryWatch) (m : Machine) :
    ∃ notices, w.take.run (answerUnless fails) m =
      (w.sees m.queue, { m with queue := [], notices }) := by
  let received := (w.receiveAll false (.ofList m.queue)).run (answerUnless fails) m
  have ran : w.take.run (answerUnless fails) m =
      (received.1.1, { received.2 with queue := received.1.2.waiting }) := by
    simp only [take, Program.bind_eq_andThen, Program.run_andThen]
    rfl
  have result : received.1 = (w.sees m.queue, (Channel.ofList m.queue).drained) := by
    have found : received.1 = _ := w.receiveAll_result false (.ofList m.queue) m
    rwa [Bool.false_or, Channel.waiting_ofList] at found
  obtain ⟨notices, kept⟩ := run_of_notes fails (keeps_receiveAll w false (.ofList m.queue)) m
  have machine : received.2 = { m with notices } := kept
  refine ⟨notices, ?_⟩
  rw [ran, result, machine, Channel.waiting_drained]

theorem queue_of_keeps {α : Type} {p : WatchDialogue α} (keeps : p.Keeps OffChannel) (m : Machine) :
    (p.run (answerUnless fails) m).2.queue = m.queue := by
  induction keeps generalizing m with
  | done a => rfl
  | @ask r next here _ ih => exact (ih _ _).trans (queue_answerUnless here m)

theorem keeps_liftStale (stale : Option Path) : (liftStale stale).Keeps OffChannel := by
  cases stale with
  | none => exact .done _
  | some p =>
      refine (keeps_ask trivial).bind fun lifted => ?_
      cases lifted with
      | true => exact .done _
      | false => exact keeps_ask trivial

def armHere (p : Path) : WatchDialogue (Option Bool) := do
  let placed : Bool ← ask (.place p)
  return if placed then some false else none

def armParent (p : Path) : WatchDialogue (Option Bool) := do
  match p.parent? with
  | none => return none
  | some parent =>
    match ← ask (.isDirectory parent) with
    | false => return none
    | true =>
      let placed : Bool ← ask (.place parent)
      return if placed then some true else none

theorem arm_eq (p : Path) :
    arm p = (ask (.isDirectory p)).andThen fun present =>
      bif present then armHere p else armParent p := by
  show (ask (.isDirectory p)).andThen _ = _
  congr
  funext present
  cases present <;> rfl

theorem record_arm (p : Path) (m : Machine) :
    (arm p).record (answerUnless fails) m = ⟨.isDirectory p, m.files.isDirectory p⟩ ::
      (bif m.files.isDirectory p then armHere p else armParent p).record (answerUnless fails) m := by
  rw [arm_eq]
  rfl

theorem armHere_result {p : Path} {armed : Option Bool} (yields : (armHere p).Yields trace armed) :
    armed ≠ some true := by
  obtain ⟨placed, later, -, ended⟩ := Program.yields_ask.mp yields
  obtain ⟨-, rfl⟩ := Program.yields_done.mp ended
  cases placed <;> simp

theorem armParent_result {p : Path} {armed : Option Bool} (yields : (armParent p).Yields trace armed) :
    armed ≠ some false := by
  unfold armParent at yields
  split at yields
  · obtain ⟨-, rfl⟩ := Program.yields_done.mp yields
    simp
  · obtain ⟨there, later, -, rest⟩ := Program.yields_ask.mp yields
    cases there with
    | false =>
        obtain ⟨-, rfl⟩ := Program.yields_done.mp rest
        simp
    | true =>
        obtain ⟨placed, later, -, ended⟩ := Program.yields_ask.mp rest
        obtain ⟨-, rfl⟩ := Program.yields_done.mp ended
        cases placed <;> simp

/-- A watch is never placed on the parent of a directory that is there, nor on one that is not. -/
theorem arm_of_steady {p : Path} {armed : Option Bool} (yields : (arm p).Yields trace armed)
    (steady : Steady p present trace) : armed ≠ some present := by
  rw [arm_eq] at yields
  obtain ⟨there, later, same, rest⟩ := Program.yields_ask.mp yields
  have found : there = present := steady there (same ▸ List.mem_cons_self)
  subst found
  cases there with
  | true => exact armHere_result rest
  | false => exact armParent_result rest

theorem keeps_arm (p : Path) : (arm p).Keeps OffChannel := by
  rw [arm_eq]
  refine (keeps_ask trivial).bind fun present => ?_
  cases present with
  | true => exact (keeps_ask trivial).bind fun _ => .done _
  | false =>
      show (armParent p).Keeps _
      unfold armParent
      split
      · exact .done _
      · refine (keeps_ask trivial).bind fun there => ?_
        cases there with
        | true => exact (keeps_ask trivial).bind fun _ => .done _
        | false => exact .done _

theorem follow_arm {p : Path} {m : Machine} {n : Nat} (latest : Option Nat)
    (found : m.files.find? p = some n) (directory : m.files.isDirectoryObject n = true)
    (works : fails (.place p) = false) :
    follow p m.files latest ((arm p).record (answerUnless fails) m) = some n := by
  have there : m.files.isDirectory p = true := by simp [FileSystem.isDirectory, found, directory]
  have placed : (answerUnless fails (.place p) m).1 = true := by
    rw [answerUnless_place, if_neg (ne_true_of_eq_false works), place]
    simp only [found, directory, if_true]
    rfl
  have trace : (arm p).record (answerUnless fails) m =
      [⟨.isDirectory p, true⟩, ⟨.place p, (answerUnless fails (.place p) m).1⟩] := by
    rw [record_arm, there]
    rfl
  rw [trace, placed]
  simp [follow, followOne, found]

def settle (w : DirectoryWatch) (present : Bool) : Option Bool → WatchDialogue (DirectoryWatch × Bool)
  | some viaParent => do
    ask (.note (.rearmed w.path viaParent))
    return ({ w with viaParent }, true)
  | none => do
    ask (.note (.rearmFailed w.path))
    return ({ w with viaParent := !present }, true)

theorem keeps_settle (w : DirectoryWatch) (present : Bool) (armed : Option Bool) :
    (w.settle present armed).Keeps IsNote := by
  cases armed with
  | none => exact (keeps_ask ⟨_, rfl⟩).bind fun _ => .done _
  | some viaParent => exact (keeps_ask ⟨_, rfl⟩).bind fun _ => .done _

theorem yields_settle {armed : Option Bool} {result : DirectoryWatch × Bool}
    (settled : (w.settle present armed).Yields trace result) (apart : armed ≠ some present) :
    result = ({ w with viaParent := !present }, true) := by
  cases armed with
  | none =>
      obtain ⟨_, later, -, ended⟩ := Program.yields_ask.mp settled
      exact (Program.yields_done.mp ended).2
  | some viaParent =>
      have other : viaParent = !present := Bool.eq_not.mpr fun same => apart (congrArg some same)
      obtain ⟨_, later, -, ended⟩ := Program.yields_ask.mp settled
      rw [← other]
      exact (Program.yields_done.mp ended).2

def shift (w : DirectoryWatch) (present : Bool) : WatchDialogue (DirectoryWatch × Bool) :=
  (liftStale (if w.viaParent then w.path.parent? else some w.path)).andThen fun _ =>
    (arm w.path).andThen (w.settle present)

theorem rearm_eq (w : DirectoryWatch) :
    w.rearm = (ask (.isDirectory w.path)).andThen fun (present : Bool) =>
      if present ≠ w.viaParent then .done (w, false) else w.shift present := by
  show (ask (.isDirectory w.path)).andThen _ = _
  congr

theorem record_rearm (w : DirectoryWatch) (m : Machine) :
    w.rearm.record (answerUnless fails) m = ⟨.isDirectory w.path, m.files.isDirectory w.path⟩ ::
      (if m.files.isDirectory w.path ≠ w.viaParent then .done (w, false)
        else w.shift (m.files.isDirectory w.path)).record (answerUnless fails) m := by
  rw [rearm_eq]
  rfl

theorem keeps_rearm (w : DirectoryWatch) : w.rearm.Keeps OffChannel := by
  have settling (present : Bool) (armed : Option Bool) : (w.settle present armed).Keeps OffChannel :=
    (keeps_settle w present armed).mono fun _ => offChannel_of_note
  rw [rearm_eq]
  refine (keeps_ask trivial).bind fun (present : Bool) => ?_
  show Program.Keeps _ (ite _ _ _)
  split
  · exact .done _
  · exact (keeps_liftStale _).bind fun _ => (keeps_arm _).bind (settling present)

theorem idle_rearm {w : DirectoryWatch} {m : Machine}
    (still : m.files.isDirectory w.path ≠ w.viaParent) :
    ∀ exchange ∈ w.rearm.record (answerUnless fails) m, Idle exchange.request := by
  rw [record_rearm, if_pos still]
  simp [Program.record, Idle]

/-- The bit says afterwards whether the directory was missing, also if no watch could be placed. -/
theorem rearm_of_steady {moved : Bool} (rearmed : w.rearm.Yields trace (w', moved))
    (steady : Steady w.path present trace) :
    w' = { w with viaParent := !present } ∧ moved = decide (present = w.viaParent) := by
  rw [rearm_eq] at rearmed
  obtain ⟨(there : Bool), later, same, rest⟩ := yields_ask.mp rearmed
  have found : there = present := steady there (same ▸ List.mem_cons_self)
  subst same found
  have after : Steady w.path there later := fun answer member =>
    steady answer (List.mem_cons_of_mem _ member)
  split at rest
  · next still =>
      have bit : w.viaParent = !there := Bool.eq_not.mpr (Ne.symm still)
      cases (Program.yields_done.mp rest).2
      rw [← bit, decide_eq_false still]
      exact ⟨rfl, rfl⟩
  · next moves =>
      obtain ⟨lifting, u, afterLift, whole, -, rest⟩ := Program.yields_andThen.mp rest
      obtain ⟨arming, armed, settling, parts, arms, settled⟩ := Program.yields_andThen.mp rest
      rw [whole, parts] at after
      have apart := arm_of_steady arms after.right.left
      cases yields_settle settled apart
      rw [decide_eq_true (not_not.mp moves)]
      exact ⟨rfl, rfl⟩

theorem steady_record (fails : WatchRequest → Bool) {α : Type} (prog : WatchDialogue α) (p : Path)
    (m : Machine) : Steady p (m.files.isDirectory p) (prog.record (answerUnless fails) m) := by
  induction prog generalizing m with
  | done a => exact fun _ member => absurd member List.not_mem_nil
  | ask r next ih =>
      intro answer member
      rcases List.mem_cons.mp member with same | member
      · cases same
        rfl
      · have files : (answerUnless fails r m).2.files = m.files := files_answerUnless r m
        rw [← files]
        exact ih _ _ answer member

theorem rearm_result (w : DirectoryWatch) (m : Machine) :
    (w.rearm.run (answerUnless fails) m).1 =
      ({ w with viaParent := !m.files.isDirectory w.path },
        decide (m.files.isDirectory w.path = w.viaParent)) := by
  obtain ⟨kept, moved⟩ := rearm_of_steady (Program.yields_record (answerUnless fails) w.rearm m)
    (steady_record fails w.rearm w.path m)
  exact Prod.ext kept moved

theorem follow_rearm {w : DirectoryWatch} {m : Machine} {n : Nat} (latest : Option Nat)
    (found : m.files.find? w.path = some n) (directory : m.files.isDirectoryObject n = true)
    (appeared : w.viaParent = true) (works : fails (.place w.path) = false) :
    follow w.path m.files latest (w.rearm.record (answerUnless fails) m) = some n := by
  have there : m.files.isDirectory w.path = true := by simp [FileSystem.isDirectory, found, directory]
  have moves : m.files.isDirectory w.path = w.viaParent := there.trans appeared.symm
  have files := files_run fails
    (liftStale (if w.viaParent then w.path.parent? else some w.path)) m
  rw [record_rearm, if_neg (not_not.mpr moves), shift, Program.record_andThen, Program.record_andThen,
    ← List.singleton_append, follow_append, follow_append, follow_append,
    follow_of_keeps (idle_of_notes (keeps_settle w _ _))]
  rw [← files] at found directory ⊢
  exact follow_arm _ found directory works

/-- A poll takes what waits and then moves the watch; whatever fails, its bit says after it whether the
directory was there. -/
theorem run_poll (fails : WatchRequest → Bool) (w : DirectoryWatch) (m : Machine) :
    (w.poll.run (answerUnless fails) m).1 =
        ({ w with viaParent := !m.files.isDirectory w.path },
          w.sees m.queue || decide (m.files.isDirectory w.path = w.viaParent)) ∧
      (w.poll.run (answerUnless fails) m).2.files = m.files ∧
      (w.poll.run (answerUnless fails) m).2.queue = [] := by
  obtain ⟨notices, taken⟩ := run_take fails w m
  let drained : Machine := { m with queue := [], notices }
  let moved := w.rearm.run (answerUnless fails) drained
  let told := moved.1.1.tell (w.sees m.queue || moved.1.2)
  have ran : w.poll.run (answerUnless fails) m = told.run (answerUnless fails) moved.2 := by
    rw [poll_eq, Program.run_andThen, Program.run_andThen, taken]
  obtain ⟨later, quiet⟩ := run_of_notes fails (keeps_tell _ _) moved.2
  have result : moved.1 = _ := rearm_result w drained
  refine ⟨?_, files_run fails _ m, ?_⟩
  · rw [ran, tell_result, result]
  · rw [ran, quiet]
    exact queue_of_keeps (keeps_rearm w) drained

theorem record_poll (fails : WatchRequest → Bool) (w : DirectoryWatch) (m : Machine) :
    ∃ notices before later, w.poll.record (answerUnless fails) m =
        before ++ (w.rearm.record (answerUnless fails) { m with queue := [], notices } ++ later) ∧
      (∀ exchange ∈ before, Idle exchange.request) ∧ (∀ exchange ∈ later, Idle exchange.request) := by
  obtain ⟨notices, taken⟩ := run_take fails w m
  let moved := w.rearm.run (answerUnless fails) { m with queue := [], notices }
  let told := moved.1.1.tell (w.sees m.queue || moved.1.2)
  refine ⟨notices, w.take.record (answerUnless fails) m, told.record (answerUnless fails) moved.2,
    ?_, ?_, ?_⟩
  · rw [poll_eq, Program.record_andThen, Program.record_andThen, taken]
  · exact (keeps_take w).exchanges (Program.yields_record _ _ m)
  · exact (idle_of_notes (keeps_tell _ _)).exchanges (Program.yields_record _ _ moved.2)

theorem idle_poll {w : DirectoryWatch} {m : Machine} (still : m.files.isDirectory w.path ≠ w.viaParent) :
    ∀ exchange ∈ w.poll.record (answerUnless fails) m, Idle exchange.request := by
  obtain ⟨notices, before, later, whole, front, back⟩ := record_poll fails w m
  rw [whole]
  intro exchange member
  rcases List.mem_append.mp member with first | rest
  · exact front exchange first
  · rcases List.mem_append.mp rest with middle | last
    · exact idle_rearm (by exact still) exchange middle
    · exact back exchange last

theorem follow_poll {w : DirectoryWatch} {m : Machine} {n : Nat} (latest : Option Nat)
    (found : m.files.find? w.path = some n) (directory : m.files.isDirectoryObject n = true)
    (appeared : w.viaParent = true) (works : fails (.place w.path) = false) :
    follow w.path m.files latest (w.poll.record (answerUnless fails) m) = some n := by
  obtain ⟨notices, before, later, whole, front, back⟩ := record_poll fails w m
  rw [whole, follow_append, follow_append, follow_of_idle front, follow_of_idle back]
  exact follow_rearm (m := { m with queue := [], notices }) latest found directory appeared works

end DirectoryWatch

namespace Scenario

open FileSystem (Operation) in
/-- What befalls a watch from its start on, with the directory of the latest placement on its path:
operations on the files, and polls in which calls may fail. -/
inductive Course : DirectoryWatch → Machine → Option Nat → Prop where
  | start (earlier : List Operation) (path : Path) (fails : WatchRequest → Bool) {w : DirectoryWatch}
      {m : Machine}
      (started : (DirectoryWatch.start path).run (Machine.answerUnless fails)
        (({} : Machine).applyAll earlier) = (.ok w, m)) :
      Course w m (Machine.follow w.path m.files none
        ((DirectoryWatch.start path).record (Machine.answerUnless fails)
          (({} : Machine).applyAll earlier)))
  | operate {w : DirectoryWatch} {m : Machine} {latest : Option Nat} (course : Course w m latest)
      (operation : Operation) : Course w (m.apply operation.apply) latest
  | poll {w : DirectoryWatch} {m : Machine} {latest : Option Nat} (course : Course w m latest)
      (fails : WatchRequest → Bool) :
      Course (w.poll.run (Machine.answerUnless fails) m).1.1
        (w.poll.run (Machine.answerUnless fails) m).2
        (Machine.follow w.path m.files latest (w.poll.record (Machine.answerUnless fails) m))

theorem numbered_base : FileSystem.Numbered ({} : Machine).files :=
  (FileSystem.sound_makeDirectory FileSystem.numbered_empty base).follows.numbered

theorem Course.tracks {w : DirectoryWatch} {m : Machine} {latest : Option Nat}
    (course : Course w m latest) : Machine.Tracks w.path m latest := by
  induction course with
  | @start earlier path fails w m started =>
      have fresh : Machine.Tracks w.path ({} : Machine) none := ⟨numbered_base, nofun, nofun, nofun⟩
      have ran := (fresh.applyAll earlier).run fails (DirectoryWatch.start path)
      rwa [started, ← Machine.files_run fails (DirectoryWatch.start path), started] at ran
  | operate _ operation ih => exact ih.apply operation
  | @poll w m latest _ fails ih =>
      have ran := ih.run fails w.poll
      rwa [(DirectoryWatch.run_poll fails w m).1]

namespace Machine

open FileSystem (Operation)

theorem applyAll_append (m : Machine) (earlier later : List Operation) :
    m.applyAll (earlier ++ later) = (m.applyAll earlier).applyAll later :=
  List.foldl_append

/-- All changes of some operations are to what a directory holds. -/
def Confined (n : Nat) : FileSystem → List Operation → Prop
  | _, [] => True
  | fs, operation :: rest =>
    (∀ change ∈ (operation.apply fs).2, change.directory = n) ∧ Confined n (operation.apply fs).1 rest

theorem queue_of_confined {m : Machine} {n : Nat} {operations : List Operation}
    (unwatched : ∀ entry ∈ m.placed, entry.2 ≠ n) (confined : Confined n m.files operations) :
    (m.applyAll operations).queue = m.queue := by
  induction operations generalizing m with
  | nil => rfl
  | cons operation rest ih =>
      have silent : m.apply operation.apply = { m with files := (operation.apply m.files).1 } := by
        apply reports_unwatched
        intro change member entry placed
        rw [confined.1 change member]
        exact unwatched entry placed
      show ((m.apply operation.apply).applyAll rest).queue = m.queue
      rw [silent]
      exact ih (m := { m with files := (operation.apply m.files).1 }) unwatched confined.2

end Machine

open Machine
open FileSystem (Operation)

/-- Each later change to what a directory holds is reported by the poll after it. -/
def Reports (w : DirectoryWatch) (m : Machine) (n : Nat) : Prop :=
  ∀ (before later : List Operation) (operation : Operation) (change : Change)
    (fails : WatchRequest → Bool), change ∈ (operation.apply (m.applyAll before).files).2 →
    change.directory = n → change.kind.isChange = true →
    (m.applyAll (before ++ [operation])).files.isDirectoryObject n = true →
    (w.poll.run (answerUnless fails) (m.applyAll (before ++ operation :: later))).1.2 = true

/-- No later change to what a directory holds is reported. -/
def Misses (w : DirectoryWatch) (m : Machine) (n : Nat) : Prop :=
  ∀ (operations : List Operation) (fails : WatchRequest → Bool), Confined n m.files operations →
    (m.applyAll operations).files.isDirectory w.path = true →
    (w.poll.run (answerUnless fails) (m.applyAll operations)).1.2 = false

/-- No poll places or lifts a watch as long as the directory is there. -/
def Rests (w : DirectoryWatch) : Prop :=
  ∀ (later : Machine) (fails : WatchRequest → Bool), later.files.isDirectory w.path = true →
    ∀ exchange ∈ w.poll.record (answerUnless fails) later, DirectoryWatch.Idle exchange.request

theorem startsWith_append (p q : Path) : Path.startsWith (p ++ q) p = true := by
  simp [Path.startsWith, Path.plain, List.filter_append]

theorem isRelevant_eventOf {w : DirectoryWatch} {change : Change} (kind : change.kind.isChange = true) :
    w.isRelevant (eventOf w.path change) = true := by
  simp [DirectoryWatch.isRelevant, eventOf, kind, startsWith_append]

theorem rests_of_bit {w : DirectoryWatch} (bit : w.viaParent = false) : Rests w := by
  intro later fails there
  apply DirectoryWatch.idle_poll
  rw [there, bit]
  simp

theorem Course.reports {w : DirectoryWatch} {m : Machine} {n : Nat} (course : Course w m (some n)) :
    Reports w m n := by
  intro before later operation change fails member inside kind kept
  have tracks := course.tracks.applyAll (before ++ [operation])
  have stands : (w.path, n) ∈ (m.applyAll (before ++ [operation])).placed := tracks.live n rfl kept
  rw [applyAll_append] at stands
  have queued := reported (w.path, n) member inside stands
  have waits : .event (eventOf w.path change) ∈ (m.applyAll (before ++ operation :: later)).queue := by
    rw [applyAll_append]
    exact (queue_prefix_applyAll ((m.applyAll before).apply operation.apply) later).subset queued
  have sees : w.sees (m.applyAll (before ++ operation :: later)).queue = true :=
    List.any_eq_true.mpr ⟨_, waits, isRelevant_eventOf kind⟩
  rw [(DirectoryWatch.run_poll fails w _).1, sees]
  rfl

theorem misses_of_unwatched {w : DirectoryWatch} {m : Machine} {n : Nat} (bit : w.viaParent = false)
    (drained : m.queue = []) (unwatched : ∀ entry ∈ m.placed, entry.2 ≠ n) : Misses w m n := by
  intro operations fails confined there
  rw [(DirectoryWatch.run_poll fails w _).1, queue_of_confined unwatched confined, drained, there, bit]
  rfl

/-- Which directories a watch hears. A poll that finds a directory hears it just if the latest placement
was on it, and it is the latest only by a poll that had not found one before and whose call succeeds.
What the poll leaves is left for good while the directory stays: no later poll places a watch, and the
changes in the directory are reported if it is heard and missed if no watch is on it. -/
theorem attention_exact {w : DirectoryWatch} {m : Machine} {latest : Option Nat}
    (course : Course w m latest) (fails : WatchRequest → Bool) {n : Nat}
    (found : m.files.find? w.path = some n) (directory : m.files.isDirectoryObject n = true) :
    let after := w.poll.run (answerUnless fails) m
    let heard := follow w.path m.files latest (w.poll.record (answerUnless fails) m)
    (w.viaParent = false → heard = latest) ∧
      (w.viaParent = true → fails (.place w.path) = false → heard = some n) ∧
      ((w.path, n) ∈ after.2.placed ↔ heard = some n) ∧
      Rests after.1.1 ∧
      ((w.path, n) ∈ after.2.placed → Reports after.1.1 after.2 n) ∧
      ((∀ entry ∈ after.2.placed, entry.2 ≠ n) → Misses after.1.1 after.2 n) := by
  intro after heard
  have there : m.files.isDirectory w.path = true := by simp [FileSystem.isDirectory, found, directory]
  obtain ⟨result, files, drained⟩ := DirectoryWatch.run_poll fails w m
  have later : after.1.1 = { w with viaParent := false } := by
    show (w.poll.run (answerUnless fails) m).1.1 = _
    rw [result, there]
    rfl
  have bit : after.1.1.viaParent = false := by rw [later]
  have path : after.1.1.path = w.path := by rw [later]
  have next : Course after.1.1 after.2 heard := course.poll fails
  have stands : (w.path, n) ∈ after.2.placed ↔ heard = some n := by
    rw [← path]
    apply next.tracks.placed_iff
    rw [files]
    exact directory
  refine ⟨?_, ?_, stands, rests_of_bit bit, ?_, misses_of_unwatched bit drained⟩
  · intro known
    apply DirectoryWatch.follow_of_idle
    apply DirectoryWatch.idle_poll
    rw [there, known]
    simp
  · exact DirectoryWatch.follow_poll latest found directory
  · intro placed
    rw [stands.mp placed] at next
    exact next.reports

def watchedPath : Path := base ++ ["d"]

def remade : Machine :=
  (((DirectoryWatch.start watchedPath).run (answerUnless fun _ => false)
    (({} : Machine).applyAll [.makeDirectory watchedPath])).2).applyAll
      [.removeDirectory watchedPath, .makeDirectory watchedPath]

theorem course_remade : Course ⟨watchedPath, false⟩ remade (some 2) := by
  have started : Course ⟨watchedPath, false⟩ _ _ :=
    .start [.makeDirectory watchedPath] watchedPath (fun _ => false) (Prod.ext rfl rfl)
  exact (started.operate (.removeDirectory watchedPath)).operate (.makeDirectory watchedPath)

theorem attention_exact_remade :
    Course ⟨watchedPath, false⟩ remade (some 2) ∧ remade.files.find? watchedPath = some 3 ∧
      remade.files.isDirectoryObject 3 = true ∧
      let after := (DirectoryWatch.mk watchedPath false).poll.run (answerUnless fun _ => false) remade
      (watchedPath, 3) ∉ after.2.placed ∧ Rests after.1.1 ∧ Misses after.1.1 after.2 3 := by
  have found : remade.files.find? watchedPath = some 3 := by decide +kernel
  have directory : remade.files.isDirectoryObject 3 = true := by decide +kernel
  obtain ⟨known, -, stands, rests, -, misses⟩ :=
    attention_exact course_remade (fun _ => false) found directory
  have unheard : (watchedPath, 3) ∉ _ := fun placed => by
    have heard := stands.mp placed
    rw [known rfl] at heard
    cases heard
  refine ⟨course_remade, found, directory, unheard, rests, misses ?_⟩
  decide +kernel

/-- The directory is there after the first poll, no watch is on it, the second poll places none, and
what was written in between goes unreported. -/
theorem remade_unheard :
    let steps : List WatchStep := [.makeDirectory ["d"], .start ["d"], .removeDirectory ["d"],
      .makeDirectory ["d"], .poll, .write ["d", "f"], .poll]
    let after := (DirectoryWatch.mk watchedPath false).poll.run answer remade
    ((takeWatchSteps none {} steps).map fun element =>
        match element.1 with
        | .polled changed => some changed
        | _ => none) = [none, none, none, none, some true, none, some false] ∧
      after.2.files.isDirectory watchedPath = true ∧ after.2.placed = [] ∧
      (after.1.1.poll.record answer after.2).all (fun exchange =>
        match exchange.request with
        | .place _ => false
        | _ => true) = true := by
  decide +kernel

end Scenario

end Coverage
