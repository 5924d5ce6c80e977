import Coverage.Proofs.Hearing
/-!
What a poll tells. The deliveries are received one at a time until none waits, whatever is among them; then
the bit is compared with the directory and set to what was found, whether or not a watch could be placed.
So a poll reports a change if and only if one was received or the directory has come or gone, and the next
one does not report it again.
-/

namespace Coverage

def remarks (notices : List WatchNotice) : WatchTrace := notices.map fun n => ⟨.note n, ()⟩

namespace DirectoryWatch

open Scenario Machine

variable {w w' : DirectoryWatch} {trace : WatchTrace} {present : Bool}

/-- What is noted while the channel is received from: the faults, and in the end that the service has
hung up. -/
def receptionNotices (w : DirectoryWatch) : Channel → List WatchNotice
  | .nothing => []
  | .hungUp => [.closed w.path]
  | .delivery (.event _) rest => w.receptionNotices rest
  | .delivery (.fault detail) rest => .fault w.path detail :: w.receptionNotices rest

/-- Neither a fault nor a relevant event keeps later deliveries from being received. -/
theorem yields_receiveAll {seen : Bool} {c : Channel} {received : Bool × Channel}
    (receiving : (w.receiveAll seen c).Yields trace received) :
    trace = remarks (w.receptionNotices c) ∧ received = (seen || w.sees c.waiting, c.drained) := by
  induction c generalizing seen trace with
  | nothing =>
      obtain ⟨empty, final⟩ := Program.yields_done.mp receiving
      rw [empty, final, Channel.waiting, sees, List.any_nil, Bool.or_false]
      exact ⟨rfl, rfl⟩
  | hungUp =>
      obtain ⟨_, later, same, ended⟩ := Program.yields_ask.mp receiving
      obtain ⟨empty, final⟩ := Program.yields_done.mp ended
      rw [same, empty, final, Channel.waiting, sees, List.any_nil, Bool.or_false]
      exact ⟨rfl, rfl⟩
  | delivery first rest ih =>
      cases first with
      | event e =>
          obtain ⟨noting, result⟩ := ih receiving
          rw [noting, result, Bool.or_assoc]
          exact ⟨rfl, rfl⟩
      | fault detail =>
          obtain ⟨_, later, same, receiving⟩ := Program.yields_ask.mp receiving
          obtain ⟨noting, result⟩ := ih receiving
          rw [same, noting, result]
          exact ⟨rfl, rfl⟩

theorem yields_take {seen : Bool} (taken : w.take.Yields trace seen) :
    ∃ c : Channel, trace = ⟨.channel, c⟩ :: remarks (w.receptionNotices c) ++ [⟨.leave c.drained, ()⟩] ∧
      seen = w.sees c.waiting := by
  obtain ⟨c, afterChannel, opening, rest⟩ := yields_ask.mp taken
  obtain ⟨receiving, received, afterReceiving, same, all, rest⟩ := Program.yields_andThen.mp rest
  obtain ⟨_, afterLeaving, leaving, ended⟩ := yields_ask.mp rest
  obtain ⟨empty, final⟩ := Program.yields_done.mp ended
  obtain ⟨noting, result⟩ := yields_receiveAll all
  refine ⟨c, ?_, ?_⟩
  · rw [opening, same, leaving, empty, noting, result]
    rfl
  · rw [final, result, Bool.false_or]

theorem keeps_after_take (w : DirectoryWatch) (seen : Bool) :
    (w.rearm.andThen fun moved => moved.1.tell (seen || moved.2)).Keeps OffChannel :=
  (keeps_rearm w).bind fun moved => (keeps_tell moved.1 _).mono fun _ => offChannel_of_note

/-- A poll receives all that waits, and then leaves the channel alone. -/
theorem yields_poll {changed : Bool} (polled : w.poll.Yields trace (w', changed)) :
    ∃ (c : Channel) (later : WatchTrace),
      trace = ⟨.channel, c⟩ :: remarks (w.receptionNotices c) ++ ⟨.leave c.drained, ()⟩ :: later ∧
      (∀ exchange ∈ later, OffChannel exchange.request) ∧
      ∀ present, Steady w.path present trace → w' = { w with viaParent := !present } ∧
        changed = (w.sees c.waiting || decide (present = w.viaParent)) := by
  rw [poll_eq] at polled
  obtain ⟨taking, seen, later, whole, taken, rest⟩ := Program.yields_andThen.mp polled
  obtain ⟨c, received, tally⟩ := yields_take taken
  refine ⟨c, later, ?_, (keeps_after_take w seen).exchanges rest, ?_⟩
  · rw [whole, received, List.append_assoc]
    rfl
  · intro present steady
    obtain ⟨rearming, ⟨w₁, moved⟩, telling, parts, rearmed, told⟩ := Program.yields_andThen.mp rest
    rw [whole, parts] at steady
    obtain ⟨same, moves⟩ := rearm_of_steady rearmed steady.right.left
    obtain ⟨noting, u, last, -, -, ended⟩ := Program.yields_andThen.mp told
    cases (Program.yields_done.mp ended).2
    exact ⟨same, by rw [tally, moves]⟩

/-- A creation, change or removal with a path that leads to the directory, name by name, or on from it. -/
def Concerns (w : DirectoryWatch) (e : Event) : Prop :=
  (e.kind = .create ∨ e.kind = .modify ∨ e.kind = .remove) ∧
    ∃ p ∈ e.paths, ∃ below, p.plain = w.path.plain ++ below

theorem isRelevant_iff {e : Event} : w.isRelevant e = true ↔ w.Concerns e := by
  have kinds : e.kind.isChange = true ↔ e.kind = .create ∨ e.kind = .modify ∨ e.kind = .remove := by
    cases e.kind <;> simp [EventKind.isChange]
  have paths (p : Path) : p.startsWith w.path = true ↔ ∃ below, p.plain = w.path.plain ++ below := by
    rw [Path.startsWith, List.isPrefixOf_iff_prefix]
    exact exists_congr fun below => eq_comm
  rw [isRelevant, Bool.and_eq_true, kinds, List.any_eq_true]
  simp only [paths, Concerns]

theorem sees_iff {deliveries : List Delivery} :
    w.sees deliveries = true ↔ ∃ e, .event e ∈ deliveries ∧ w.Concerns e := by
  rw [sees, List.any_eq_true]
  constructor
  · rintro ⟨delivery, member, relevant⟩
    cases delivery with
    | event e => exact ⟨e, member, isRelevant_iff.mp relevant⟩
    | fault detail => cases relevant
  · rintro ⟨e, member, concerns⟩
    exact ⟨.event e, member, isRelevant_iff.mpr concerns⟩

theorem sees_eq_false {deliveries : List Delivery}
    (nothingNew : ∀ e, .event e ∈ deliveries → ¬w.Concerns e) : w.sees deliveries = false := by
  apply Bool.eq_false_iff.mpr
  intro seen
  have ⟨e, member, concerns⟩ := sees_iff.mp seen
  exact nothingNew e member concerns

def arrivals {σ : Type} (handle : (r : WatchRequest) → σ → r.Answer × σ) (s : σ) : Channel :=
  (handle .channel s).1

theorem arrivals_of_record {σ : Type} {handle : (r : WatchRequest) → σ → r.Answer × σ} {s : σ}
    {c : Channel} {rest : WatchTrace} (begins : w.poll.record handle s = ⟨.channel, c⟩ :: rest) :
    arrivals handle s = c := by
  have first : (⟨.channel, (handle .channel s).1⟩ : Exchange WatchRequest WatchRequest.Answer) =
      ⟨.channel, c⟩ := (List.cons.inj begins).1
  exact eq_of_heq (Exchange.mk.inj first).2

theorem run_poll_of_steady {σ : Type} (handle : (r : WatchRequest) → σ → r.Answer × σ) (s : σ)
    (steady : Steady w.path present (w.poll.record handle s)) :
    (w.poll.run handle s).1 = ({ w with viaParent := !present },
      w.sees (arrivals handle s).waiting || decide (present = w.viaParent)) := by
  obtain ⟨c, later, whole, -, settles⟩ := yields_poll (Program.yields_record handle w.poll s)
  obtain ⟨kept, told⟩ := settles present steady
  rw [← arrivals_of_record whole] at told
  exact Prod.ext kept told

/-- On a machine, a poll leaves nothing in the queue and the files as they were; so one right after it has
nothing to tell. -/
theorem run_poll_again (fails fails' : WatchRequest → Bool) (w : DirectoryWatch) (m : Machine) :
    let after := w.poll.run (answerUnless fails) m
    (after.1.1.poll.run (answerUnless fails') after.2).1 = (after.1.1, false) := by
  intro after
  obtain ⟨result, files, drained⟩ := run_poll fails w m
  have found : after.1.1 = { w with viaParent := !m.files.isDirectory w.path } :=
    congrArg Prod.fst result
  have again := (run_poll fails' after.1.1 after.2).1
  rw [files, drained, found] at again
  rw [found, again]
  cases m.files.isDirectory w.path <;> rfl

/-- What a poll does, whatever waits and whatever the files are like. It receives all that waits, and
notes the faults among it. If the directory is found alike throughout, the poll tells of a change exactly
if an event that waited concerns the directory or the directory has come or gone since the bit was set,
and sets the bit to whether it is missing, also where no watch could be placed; so a next poll tells of no
change unless there is a new event or the directory has come or gone again. On a machine the queue is
empty after a poll, and one that starts from there tells of no change. -/
theorem poll_exact {σ : Type} (handle : (r : WatchRequest) → σ → r.Answer × σ) (s : σ)
    (w : DirectoryWatch) :
    let c := arrivals handle s
    let after := w.poll.run handle s
    (c.drained.waiting = [] ∧ ∃ later : WatchTrace, w.poll.record handle s =
          ⟨.channel, c⟩ :: remarks (w.receptionNotices c) ++ ⟨.leave c.drained, ()⟩ :: later ∧
        ∀ exchange ∈ later, OffChannel exchange.request) ∧
      (∀ present, Steady w.path present (w.poll.record handle s) →
        (after.1.2 = true ↔ (∃ e, .event e ∈ c.waiting ∧ w.Concerns e) ∨
          w.viaParent = true ∧ present = true ∨ w.viaParent = false ∧ present = false) ∧
        after.1.1 = { w with viaParent := !present } ∧
        ∀ again : σ, (∀ e, .event e ∈ (arrivals handle again).waiting → ¬w.Concerns e) →
          Steady w.path present (after.1.1.poll.record handle again) →
          (after.1.1.poll.run handle again).1 = (after.1.1, false)) ∧
      ∀ (fails fails' : WatchRequest → Bool) (m : Machine),
        let polled := w.poll.run (answerUnless fails) m
        polled.2.queue = [] ∧ polled.2.files = m.files ∧
          (polled.1.1.poll.run (answerUnless fails') polled.2).1 = (polled.1.1, false) := by
  refine ⟨⟨Channel.waiting_drained _, ?received⟩, fun present steady => ?found, fun fails fails' m => ?machine⟩
  case received =>
    obtain ⟨c, later, whole, quiet, -⟩ := yields_poll (Program.yields_record handle w.poll s)
    rw [arrivals_of_record whole]
    exact ⟨later, whole, quiet⟩
  case found =>
    have result := run_poll_of_steady handle s steady
    refine ⟨?told, by rw [result], fun again nothingNew still => ?silent⟩
    case told =>
      rw [result, Bool.or_eq_true, sees_iff, decide_eq_true_iff]
      refine or_congr_right ?_
      cases present <;> cases w.viaParent <;> simp
    case silent =>
      rw [result] at still ⊢
      have unseen : DirectoryWatch.sees { w with viaParent := !present }
          (arrivals handle again).waiting = false := sees_eq_false nothingNew
      rw [run_poll_of_steady handle again still, unseen]
      cases present <;> rfl
  case machine =>
    obtain ⟨-, files, drained⟩ := run_poll fails w m
    exact ⟨drained, files, run_poll_again fails fails' w m⟩

def appeared : Machine :=
  { ({} : Machine).apply (·.makeDirectory watchedPath) with
    queue := [.fault "lost", .event ⟨.modify, [watchedPath ++ ["f"]]⟩,
      .event ⟨.modify, [base ++ ["e"]]⟩] }

theorem poll_exact_appeared :
    let handle := answerUnless fun _ => true
    let w : DirectoryWatch := ⟨watchedPath, true⟩
    let after := w.poll.run handle appeared
    Steady w.path true (w.poll.record handle appeared) ∧
      (∃ e, .event e ∈ appeared.queue ∧ w.Concerns e) ∧ after.1 = (⟨watchedPath, false⟩, true) ∧
      after.2.queue = [] ∧ after.2.placed = [] ∧
      Steady w.path true (after.1.1.poll.record handle after.2) ∧
      (after.1.1.poll.run handle after.2).1 = (⟨watchedPath, false⟩, false) := by
  intro handle w after
  have there (m : Machine) (files : m.files = appeared.files) : m.files.isDirectory watchedPath = true := by
    rw [files]
    decide +kernel
  have steady := steady_record (fun _ => true) w.poll watchedPath appeared
  rw [there _ rfl] at steady
  have files : after.2.files = appeared.files := files_run _ w.poll appeared
  have still := steady_record (fun _ => true) after.1.1.poll watchedPath after.2
  rw [there _ files] at still
  obtain ⟨-, settles, machines⟩ := poll_exact handle appeared w
  obtain ⟨told, kept, silent⟩ := settles true steady
  obtain ⟨drained, -, -⟩ := machines (fun _ => true) (fun _ => true) appeared
  have empty : (arrivals handle after.2).waiting = [] := by
    rw [← drained]
    exact Channel.waiting_ofList after.2.queue
  have again := silent after.2 (fun e member => absurd (empty ▸ member) List.not_mem_nil) still
  have concerns : w.Concerns ⟨.modify, [watchedPath ++ ["f"]]⟩ := isRelevant_iff.mp (by decide +kernel)
  have seen : ∃ e, .event e ∈ appeared.queue ∧ w.Concerns e :=
    ⟨_, List.mem_cons_of_mem _ List.mem_cons_self, concerns⟩
  exact ⟨steady, seen, Prod.ext kept (told.mpr (.inl seen)), drained, by decide +kernel, still,
    again.trans (congrArg (·, false) kept)⟩

end DirectoryWatch

end Coverage
