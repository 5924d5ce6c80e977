/-!
Programs that ask their surroundings. A program either is done or asks a request and goes on with the
answer, whatever that is; the surroundings are a handler that answers every request from a state of its
own and changes that state.
-/

namespace Coverage

inductive Program (Request : Type) (Answer : Request → Type) (α : Type) where
  | done (result : α)
  | ask (request : Request) (next : Answer request → Program Request Answer α)

namespace Program

variable {Request : Type} {Answer : Request → Type} {α β σ : Type}

def andThen (p : Program Request Answer α) (f : α → Program Request Answer β) :
    Program Request Answer β :=
  match p with
  | done a => f a
  | ask r next => ask r fun answer => (next answer).andThen f

instance : Monad (Program Request Answer) where
  pure := done
  bind := andThen

theorem bind_eq_andThen (p : Program Request Answer α) (f : α → Program Request Answer β) :
    p >>= f = p.andThen f := rfl

theorem andThen_done (p : Program Request Answer α) : p.andThen done = p := by
  induction p with
  | done => rfl
  | ask r next ih => exact congrArg (ask r) (funext ih)

theorem andThen_assoc {γ : Type} (p : Program Request Answer α) (f : α → Program Request Answer β)
    (g : β → Program Request Answer γ) :
    (p.andThen f).andThen g = p.andThen fun a => (f a).andThen g := by
  induction p with
  | done => rfl
  | ask r next ih => exact congrArg (ask r) (funext ih)

instance : LawfulMonad (Program Request Answer) :=
  LawfulMonad.mk' _ andThen_done (fun _ _ => rfl) andThen_assoc

def run (handle : (r : Request) → σ → Answer r × σ) : Program Request Answer α → σ → α × σ
  | done a, s => (a, s)
  | ask r next, s =>
    let (answer, s) := handle r s
    (next answer).run handle s

theorem run_andThen (handle : (r : Request) → σ → Answer r × σ) (p : Program Request Answer α)
    (f : α → Program Request Answer β) (s : σ) :
    (p.andThen f).run handle s = (f (p.run handle s).1).run handle (p.run handle s).2 := by
  induction p generalizing s with
  | done => rfl
  | ask r next ih => exact ih _ _

end Program

end Coverage
