import Coverage.Program.Trace
import Coverage.Request
/-!
Traces of dialogues, read step by step: each lemma takes one construct of a dialogue apart. Where every
question has one answer, a dialogue has one outcome.
-/

namespace Coverage

abbrev Trace := List (Exchange Request Request.Answer)

namespace Dialogue

variable {α β : Type} {trace : Trace}

theorem yields_pure {a b : α} :
    (pure a : Dialogue α).Yields trace b ↔ trace = [] ∧ b = a :=
  Program.yields_done

theorem yields_bind {p : Dialogue α} {f : α → Dialogue β} {b : β} :
    (p >>= f).Yields trace b ↔
      ∃ first a later, trace = first ++ later ∧ p.Yields first a ∧ (f a).Yields later b :=
  Program.yields_andThen

theorem yields_ask_bind {r : Request} {f : r.Answer → Dialogue β} {b : β} :
    (ask r >>= f).Yields trace b ↔
      ∃ answer later, trace = ⟨r, answer⟩ :: later ∧ (f answer).Yields later b :=
  Program.yields_ask

theorem yields_note_bind {n : Notice} {f : Unit → Dialogue β} {b : β} :
    (note n >>= f).Yields trace b ↔
      ∃ later, trace = ⟨.note n, ()⟩ :: later ∧ (f ()).Yields later b := by
  constructor
  · intro noted
    obtain ⟨_, later, same, yields⟩ := yields_ask_bind.mp noted
    exact ⟨later, same, yields⟩
  · intro noted
    obtain ⟨later, same, yields⟩ := noted
    exact yields_ask_bind.mpr ⟨(), later, same, yields⟩

theorem yields_bind_pure {p : Dialogue α} {f : α → β} {b : β} :
    (p >>= fun a => pure (f a)).Yields trace b ↔ ∃ a, p.Yields trace a ∧ b = f a := by
  constructor
  · intro bound
    obtain ⟨first, a, later, same, yields, ended⟩ := yields_bind.mp bound
    obtain ⟨empty, final⟩ := yields_pure.mp ended
    subst same empty
    rw [List.append_nil]
    exact ⟨a, yields, final⟩
  · intro bound
    obtain ⟨a, yields, final⟩ := bound
    exact yields_bind.mpr ⟨trace, a, [], (List.append_nil trace).symm, yields, yields_pure.mpr ⟨rfl, final⟩⟩

theorem yields_note_pure {n : Notice} {a b : α} :
    (note n >>= fun _ => pure a).Yields trace b ↔ trace = [⟨.note n, ()⟩] ∧ b = a := by
  constructor
  · intro noted
    obtain ⟨later, same, ended⟩ := yields_note_bind.mp noted
    obtain ⟨empty, final⟩ := yields_pure.mp ended
    rw [same, empty]
    exact ⟨rfl, final⟩
  · intro noted
    exact yields_note_bind.mpr ⟨[], noted.1, yields_pure.mpr ⟨rfl, noted.2⟩⟩

theorem yields_noteAll {notices : List Notice} {b : Unit} (noted : (noteAll notices).Yields trace b) :
    trace = notices.map fun n => ⟨.note n, ()⟩ := by
  induction notices generalizing trace with
  | nil => exact (Program.yields_done.mp noted).1
  | cons n rest ih =>
      obtain ⟨later, same, noted⟩ := yields_note_bind.mp noted
      rw [same, ih noted]
      rfl

theorem noteAll_yields (notices : List Notice) :
    (noteAll notices).Yields (notices.map fun n => ⟨.note n, ()⟩) () := by
  induction notices with
  | nil => exact .done ()
  | cons n rest ih => exact .ask ih

variable {allowed : Request → Prop}

theorem keeps_ask {r : Request} (here : allowed r) : (Dialogue.ask r).Keeps allowed :=
  .ask here .done

/-- What a dialogue comes to where every question has one answer. -/
def outcome (answers : (r : Request) → r.Answer) (p : Dialogue α) : α :=
  (p.run (fun r s => (answers r, s)) ()).1

section

variable (answers : (r : Request) → r.Answer)

theorem outcome_ask (r : Request) : (ask r).outcome answers = answers r := rfl

theorem outcome_bind (p : Dialogue α) (f : α → Dialogue β) :
    (p >>= f).outcome answers = (f (p.outcome answers)).outcome answers :=
  congrArg Prod.fst (Program.run_andThen _ p f ())

end

end Dialogue

end Coverage
