import Coverage.Program
/-!
Traces of programs: the requests that a program makes with the answers they get, and the result that it
comes to. A trace of one program after another falls into a trace of each, and every run has a trace. A
program that keeps to some requests has no other exchange in any of its traces.
-/

namespace Coverage

structure Exchange (Request : Type) (Answer : Request → Type) where
  request : Request
  answer : Answer request

namespace Program

variable {Request : Type} {Answer : Request → Type} {α β σ : Type}

/-- With these answers to its requests, the program comes to this result. -/
inductive Yields : Program Request Answer α → List (Exchange Request Answer) → α → Prop where
  | done (a : α) : Yields (.done a) [] a
  | ask {r : Request} {next : Answer r → Program Request Answer α} {answer : Answer r}
      {trace : List (Exchange Request Answer)} {a : α} (later : Yields (next answer) trace a) :
      Yields (.ask r next) (⟨r, answer⟩ :: trace) a

theorem yields_done {a b : α} {trace : List (Exchange Request Answer)} :
    Yields (done a) trace b ↔ trace = [] ∧ b = a := by
  constructor
  · rintro ⟨⟩
    exact ⟨rfl, rfl⟩
  · rintro ⟨rfl, rfl⟩
    exact .done b

theorem yields_ask {r : Request} {next : Answer r → Program Request Answer α}
    {trace : List (Exchange Request Answer)} {b : α} :
    Yields (ask r next) trace b ↔
      ∃ answer later, trace = ⟨r, answer⟩ :: later ∧ Yields (next answer) later b := by
  constructor
  · intro h
    cases h with
    | ask later => exact ⟨_, _, rfl, later⟩
  · rintro ⟨answer, later, rfl, h⟩
    exact .ask h

theorem yields_andThen {p : Program Request Answer α} {f : α → Program Request Answer β}
    {trace : List (Exchange Request Answer)} {b : β} :
    Yields (p.andThen f) trace b ↔
      ∃ first a later, trace = first ++ later ∧ Yields p first a ∧ Yields (f a) later b := by
  induction p generalizing trace with
  | done a =>
    constructor
    · intro h
      exact ⟨[], a, trace, rfl, .done a, h⟩
    · rintro ⟨first, a', later, rfl, h, h'⟩
      obtain ⟨rfl, rfl⟩ := yields_done.mp h
      exact h'
  | ask r next ih =>
    constructor
    · intro h
      obtain ⟨answer, rest, rfl, tail⟩ := yields_ask.mp h
      obtain ⟨first, a, later, rfl, hp, hf⟩ := (ih answer).mp tail
      exact ⟨⟨r, answer⟩ :: first, a, later, rfl, .ask hp, hf⟩
    · rintro ⟨first, a, later, rfl, hp, hf⟩
      obtain ⟨answer, rest, rfl, tail⟩ := yields_ask.mp hp
      exact .ask ((ih answer).mpr ⟨rest, a, later, rfl, tail, hf⟩)

/-- Asks nothing but these requests, whatever the answers are. -/
inductive Keeps (allowed : Request → Prop) : Program Request Answer α → Prop where
  | done (a : α) : Keeps allowed (done a)
  | ask {r : Request} {next : Answer r → Program Request Answer α} (here : allowed r)
    (later : ∀ answer, Keeps allowed (next answer)) : Keeps allowed (ask r next)

variable {allowed : Request → Prop}

theorem Keeps.bind {p : Program Request Answer α} {f : α → Program Request Answer β}
    (first : p.Keeps allowed) (later : ∀ a, (f a).Keeps allowed) : (p >>= f).Keeps allowed := by
  induction first with
  | done a => exact later a
  | ask here _ ih => exact .ask here ih

theorem Keeps.mono {wider : Request → Prop} {p : Program Request Answer α} (keeps : p.Keeps allowed)
    (wide : ∀ r, allowed r → wider r) : p.Keeps wider := by
  induction keeps with
  | done a => exact .done a
  | ask here _ ih => exact .ask (wide _ here) ih

theorem Keeps.exchanges {p : Program Request Answer α} (keeps : p.Keeps allowed)
    {trace : List (Exchange Request Answer)} {a : α} (yields : p.Yields trace a) :
    ∀ exchange ∈ trace, allowed exchange.request := by
  induction keeps generalizing trace with
  | done =>
      obtain ⟨empty, -⟩ := yields_done.mp yields
      subst empty
      intro exchange member
      cases member
  | ask here _ ih =>
      obtain ⟨answer, later, same, rest⟩ := yields_ask.mp yields
      subst same
      intro exchange member
      rcases List.mem_cons.mp member with same | member
      · rw [same]
        exact here
      · exact ih answer rest exchange member

def record (handle : (r : Request) → σ → Answer r × σ) :
    Program Request Answer α → σ → List (Exchange Request Answer)
  | done _, _ => []
  | ask r next, s => ⟨r, (handle r s).1⟩ :: (next (handle r s).1).record handle (handle r s).2

theorem yields_record (handle : (r : Request) → σ → Answer r × σ) (p : Program Request Answer α)
    (s : σ) : Yields p (p.record handle s) (p.run handle s).1 := by
  induction p generalizing s with
  | done a => exact .done a
  | ask r next ih => exact .ask (ih _ _)

theorem record_andThen (handle : (r : Request) → σ → Answer r × σ) (p : Program Request Answer α)
    (f : α → Program Request Answer β) (s : σ) :
    (p.andThen f).record handle s =
      p.record handle s ++ (f (p.run handle s).1).record handle (p.run handle s).2 := by
  induction p generalizing s with
  | done => rfl
  | ask r next ih => exact congrArg (_ :: ·) (ih _ _)

end Program

end Coverage
