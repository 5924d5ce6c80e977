import Mathlib.Data.List.Basic
import Coverage.Program.Trace
import Coverage.Proofs.FileNumbers
import Coverage.Scenario.Machine
/-!
Whether a watch hears a directory. Watches are placed and lifted through calls that may fail, and the
files change in between. What a watch hears is told by the directory of the latest placement on its
path: a watch stands on it as long as that directory is there, and stands on no other.
-/

namespace Coverage.Scenario

open FileSystem (Operation Numbered Follows)

namespace Machine

/-- Answers as the machine does, but for the calls on watches that fail. -/
def answerUnless (fails : WatchRequest → Bool) : (r : WatchRequest) → Machine → r.Answer × Machine
  | .place p, m => if fails (.place p) then (false, m) else m.place p
  | .lift p, m => if fails (.lift p) then (false, m) else m.lift p
  | r, m => answer r m

def OffChannel : WatchRequest → Prop
  | .channel | .leave _ => False
  | _ => True

def applyAll (m : Machine) (operations : List Operation) : Machine :=
  operations.foldl (fun m operation => m.apply operation.apply) m

/-- The directory of the latest placement on a path, unless a watch was lifted there since. -/
def followOne (path : Path) (files : FileSystem) (latest : Option Nat) :
    Exchange WatchRequest WatchRequest.Answer → Option Nat
  | ⟨.place p, true⟩ => if p = path then files.find? path else latest
  | ⟨.lift p, true⟩ => if p = path then none else latest
  | _ => latest

def follow (path : Path) (files : FileSystem) (latest : Option Nat)
    (trace : List (Exchange WatchRequest WatchRequest.Answer)) : Option Nat :=
  trace.foldl (followOne path files) latest

theorem follow_append (path : Path) (files : FileSystem) (latest : Option Nat)
    (first later : List (Exchange WatchRequest WatchRequest.Answer)) :
    follow path files latest (first ++ later) =
      follow path files (follow path files latest first) later :=
  List.foldl_append

/-- The watches on a path and its latest placement. -/
structure Tracks (path : Path) (m : Machine) (latest : Option Nat) : Prop where
  numbered : Numbered m.files
  placed_latest : ∀ n, (path, n) ∈ m.placed → latest = some n
  live : ∀ n, latest = some n → m.files.isDirectoryObject n = true → (path, n) ∈ m.placed
  used : ∀ n, latest = some n → n < m.files.next

variable {path : Path} {m : Machine} {latest : Option Nat} {fails : WatchRequest → Bool}

theorem Tracks.placed_iff (h : Tracks path m latest) {n : Nat}
    (directory : m.files.isDirectoryObject n = true) : (path, n) ∈ m.placed ↔ latest = some n :=
  ⟨h.placed_latest n, fun isLatest => h.live n isLatest directory⟩

theorem files_place (m : Machine) (p : Path) : (m.place p).2.files = m.files := by
  unfold place
  split
  · split <;> rfl
  · rfl

theorem queue_place (m : Machine) (p : Path) : (m.place p).2.queue = m.queue := by
  unfold place
  split
  · split <;> rfl
  · rfl

theorem answerUnless_place (p : Path) (m : Machine) :
    answerUnless fails (.place p) m = if fails (.place p) then (false, m) else m.place p := rfl

theorem answerUnless_lift (p : Path) (m : Machine) :
    answerUnless fails (.lift p) m = if fails (.lift p) then (false, m) else m.lift p := rfl

theorem files_answerUnless (r : WatchRequest) (m : Machine) :
    (answerUnless fails r m).2.files = m.files := by
  cases r with
  | place p =>
      rw [answerUnless_place]
      split
      · rfl
      · exact files_place m p
  | lift p =>
      rw [answerUnless_lift]
      split <;> rfl
  | _ => rfl

theorem queue_answerUnless {r : WatchRequest} (off : OffChannel r) (m : Machine) :
    (answerUnless fails r m).2.queue = m.queue := by
  cases r with
  | channel | leave left => exact off.elim
  | place p =>
      rw [answerUnless_place]
      split
      · rfl
      · exact queue_place m p
  | lift p =>
      rw [answerUnless_lift]
      split <;> rfl
  | _ => rfl

theorem files_run (fails : WatchRequest → Bool) {α : Type} (p : WatchDialogue α) (m : Machine) :
    (p.run (answerUnless fails) m).2.files = m.files := by
  induction p generalizing m with
  | done a => rfl
  | ask r next ih => exact (ih _ _).trans (files_answerUnless r m)

theorem Tracks.place (h : Tracks path m latest) (p : Path) :
    Tracks path (m.place p).2 (followOne path m.files latest ⟨.place p, (m.place p).1⟩) := by
  cases found : m.files.find? p with
  | none => simpa [Machine.place, found, followOne] using h
  | some n =>
      by_cases directory : m.files.isDirectoryObject n = true
      · simp only [Machine.place, found, directory, if_true, followOne]
        by_cases same : p = path
        · subst same
          rw [if_pos rfl, found]
          refine ⟨h.numbered, ?_, ?_, ?_⟩
          · intro k member
            simpa [eq_comm] using member
          · rintro k isLatest -
            simp [Option.some.inj isLatest]
          · rintro k isLatest
            exact Option.some.inj isLatest ▸ h.numbered.lt_of_directory directory
        · have other : path ≠ p := Ne.symm same
          rw [if_neg same]
          refine ⟨h.numbered, ?_, ?_, h.used⟩
          · intro k member
            have kept : (path, k) ∈ m.placed := by simpa [other] using member
            exact h.placed_latest k kept
          · intro k isLatest there
            simpa [other] using h.live k isLatest there
      · simpa [Machine.place, found, directory, followOne] using h

theorem Tracks.lift (h : Tracks path m latest) (p : Path) :
    Tracks path (m.lift p).2 (followOne path m.files latest ⟨.lift p, (m.lift p).1⟩) := by
  by_cases same : p = path
  · subst same
    have cleared : ∀ n, (p, n) ∉ (m.lift p).2.placed := by simp [Machine.lift]
    cases watched : (m.lift p).1 with
    | true =>
        simp only [followOne, if_true]
        exact ⟨h.numbered, fun n member => absurd member (cleared n), nofun, nofun⟩
    | false =>
        refine ⟨h.numbered, fun n member => absurd member (cleared n), ?_, h.used⟩
        -- No watch stood on the path, so the directory of the latest placement is gone.
        intro n isLatest there
        have stood : (m.lift p).1 = true :=
          List.any_eq_true.mpr ⟨(p, n), h.live n isLatest there, by simp⟩
        rw [watched] at stood
        cases stood
  · have other : path ≠ p := Ne.symm same
    have unmoved : followOne path m.files latest ⟨.lift p, (m.lift p).1⟩ = latest := by
      cases (m.lift p).1 <;> simp [followOne, same]
    rw [unmoved]
    refine ⟨h.numbered, ?_, ?_, h.used⟩
    · intro n member
      have kept : (path, n) ∈ m.placed := by simpa [Machine.lift, other] using member
      exact h.placed_latest n kept
    · intro n isLatest there
      simpa [Machine.lift, other] using h.live n isLatest there

theorem Tracks.answer (h : Tracks path m latest) (fails : WatchRequest → Bool) (r : WatchRequest) :
    Tracks path (answerUnless fails r m).2
      (followOne path m.files latest ⟨r, (answerUnless fails r m).1⟩) := by
  cases r with
  | place p =>
      cases failing : fails (.place p) with
      | true =>
          rw [answerUnless_place, if_pos failing]
          exact h
      | false =>
          rw [answerUnless_place, if_neg (ne_true_of_eq_false failing)]
          exact h.place p
  | lift p =>
      cases failing : fails (.lift p) with
      | true =>
          rw [answerUnless_lift, if_pos failing]
          exact h
      | false =>
          rw [answerUnless_lift, if_neg (ne_true_of_eq_false failing)]
          exact h.lift p
  | canonical p => exact h
  | isDirectory p => exact h
  | channel => exact h
  | leave left => exact ⟨h.numbered, h.placed_latest, h.live, h.used⟩
  | note notice => exact ⟨h.numbered, h.placed_latest, h.live, h.used⟩

theorem Tracks.run (h : Tracks path m latest) (fails : WatchRequest → Bool) {α : Type}
    (p : WatchDialogue α) :
    Tracks path (p.run (answerUnless fails) m).2
      (follow path m.files latest (p.record (answerUnless fails) m)) := by
  induction p generalizing m latest with
  | done a => exact h
  | ask r next ih =>
      have later := ih (answerUnless fails r m).1 (h.answer fails r)
      rwa [files_answerUnless] at later

/-! Changes to the files. -/

theorem files_report (m : Machine) (change : Change) : (m.report change).files = m.files := rfl

theorem files_reports (m : Machine) (changes : List Change) :
    (changes.foldl report m).files = m.files := by
  induction changes generalizing m with
  | nil => rfl
  | cons change rest ih => exact (ih _).trans (files_report m change)

theorem files_apply (m : Machine) (operation : FileSystem → FileSystem × List Change) :
    (m.apply operation).files = (operation m.files).1 :=
  files_reports _ _

theorem mem_placed_report {change : Change} {entry : Path × Nat} :
    entry ∈ (m.report change).placed ↔
      entry ∈ m.placed ∧ (change.final = true → change.directory ≠ entry.2) := by
  unfold report
  split
  · next final => simp [final, ne_comm]
  · next lasting => simp [lasting]

theorem mem_placed_reports {changes : List Change} {entry : Path × Nat} :
    entry ∈ (changes.foldl report m).placed ↔
      entry ∈ m.placed ∧ ∀ change ∈ changes, change.final = true → change.directory ≠ entry.2 := by
  induction changes generalizing m with
  | nil => simp
  | cons change rest ih =>
      rw [List.foldl_cons, ih, mem_placed_report, List.forall_mem_cons, and_assoc]

theorem mem_placed_apply {operation : Operation} {entry : Path × Nat} :
    entry ∈ (m.apply operation.apply).placed ↔
      entry ∈ m.placed ∧ ∀ change ∈ (operation.apply m.files).2,
        change.final = true → change.directory ≠ entry.2 :=
  mem_placed_reports

theorem Tracks.apply (h : Tracks path m latest) (operation : Operation) :
    Tracks path (m.apply operation.apply) latest := by
  have sound := operation.sound h.numbered
  refine ⟨?_, ?_, ?_, ?_⟩
  · rw [files_apply]
    exact sound.follows.numbered
  · intro n member
    exact h.placed_latest n (mem_placed_apply.mp member).1
  · intro n isLatest there
    rw [files_apply] at there
    have before := sound.follows.directory n (h.used n isLatest) there
    refine mem_placed_apply.mpr ⟨h.live n isLatest before, ?_⟩
    rintro change member final rfl
    rw [sound.final change member final] at there
    cases there
  · intro n isLatest
    rw [files_apply]
    exact Nat.lt_of_lt_of_le (h.used n isLatest) sound.follows.next_le

theorem Tracks.applyAll (h : Tracks path m latest) (operations : List Operation) :
    Tracks path (m.applyAll operations) latest := by
  induction operations generalizing m with
  | nil => exact h
  | cons operation rest ih => exact ih (h.apply operation)

theorem queue_prefix_reports (m : Machine) (changes : List Change) :
    m.queue <+: (changes.foldl report m).queue := by
  induction changes generalizing m with
  | nil => exact List.prefix_rfl
  | cons change rest ih => exact (List.prefix_append _ _).trans (ih (m.report change))

theorem queue_prefix_apply (m : Machine) (operation : FileSystem → FileSystem × List Change) :
    m.queue <+: (m.apply operation).queue :=
  queue_prefix_reports { m with files := (operation m.files).1 } _

theorem queue_prefix_applyAll (m : Machine) (operations : List Operation) :
    m.queue <+: (m.applyAll operations).queue := by
  induction operations generalizing m with
  | nil => exact List.prefix_rfl
  | cons operation rest ih =>
      exact (queue_prefix_apply m operation.apply).trans (ih (m.apply operation.apply))

/-- A watch that outlasts the changes has reported those in its directory. -/
theorem reported {changes : List Change} (entry : Path × Nat) {change : Change}
    (member : change ∈ changes) (inside : change.directory = entry.2)
    (stands : entry ∈ (changes.foldl report m).placed) :
    .event (eventOf entry.1 change) ∈ (changes.foldl report m).queue := by
  induction changes generalizing m with
  | nil => cases member
  | cons first rest ih =>
      rcases List.mem_cons.mp member with rfl | later
      · have stood : entry ∈ m.placed := (mem_placed_reports.mp stands).1
        have queued : .event (eventOf entry.1 change) ∈ (m.report change).queue := by
          refine List.mem_append_right _ (List.mem_map.mpr ⟨entry, ?_, rfl⟩)
          exact List.mem_filter.mpr ⟨stood, by simp [inside]⟩
        exact (queue_prefix_reports _ rest).subset queued
      · exact ih later stands

theorem reports_unwatched {changes : List Change}
    (unwatched : ∀ change ∈ changes, ∀ entry ∈ m.placed, entry.2 ≠ change.directory) :
    changes.foldl report m = m := by
  induction changes with
  | nil => rfl
  | cons change rest ih =>
      have none : m.placed.filter (·.2 = change.directory) = [] := by
        simpa [List.filter_eq_nil_iff] using unwatched change List.mem_cons_self
      have all : m.placed.filter (·.2 ≠ change.directory) = m.placed := by
        simpa [List.filter_eq_self] using unwatched change List.mem_cons_self
      have same : m.report change = m := by
        simp only [report, none, all, List.map_nil, List.append_nil, ite_self]
      rw [List.foldl_cons, same]
      exact ih fun later member => unwatched later (List.mem_cons_of_mem _ member)

end Machine

end Coverage.Scenario
