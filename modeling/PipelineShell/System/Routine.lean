/-!
Programs that run in steps. A routine either has finished or asks one question and goes on from
the reply; what the replies are is up to the world it runs in. Every statement about a routine
that holds in all worlds holds whatever other processes do meanwhile.
-/

namespace PipelineShell

/-- The questions a routine may ask, and what is replied to each. -/
structure Interface where
  Request : Type
  Reply : Request → Type

/-- A program that asks questions before it gives a value. -/
inductive Routine (interface : Interface) (α : Type) : Type where
  | finished (value : α)
  | ask (request : interface.Request) (resume : interface.Reply request → Routine interface α)

/-- A state that answers every question, and what becomes of it. -/
abbrev World (interface : Interface) (σ : Type) :=
  (request : interface.Request) → σ → interface.Reply request × σ

namespace Routine

variable {interface : Interface} {α β σ : Type}

def bind (first : Routine interface α) (next : α → Routine interface β) : Routine interface β :=
  match first with
  | .finished value => next value
  | .ask request resume => .ask request fun reply => (resume reply).bind next

instance : Monad (Routine interface) where
  pure := .finished
  bind := Routine.bind

def request (request : interface.Request) : Routine interface (interface.Reply request) :=
  .ask request .finished

def run (world : World interface σ) : Routine interface α → σ → α × σ
  | .finished value, state => (value, state)
  | .ask request resume, state =>
      let (reply, next) := world request state
      (resume reply).run world next

theorem bind_pure_right (first : Routine interface α) : first.bind .finished = first := by
  induction first with
  | finished value => rfl
  | ask request resume ih => exact congrArg (Routine.ask request) (funext ih)

theorem bind_assoc {γ : Type} (first : Routine interface α) (second : α → Routine interface β)
    (third : β → Routine interface γ) :
    (first.bind second).bind third = first.bind fun value => (second value).bind third := by
  induction first with
  | finished value => rfl
  | ask request resume ih => exact congrArg (Routine.ask request) (funext ih)

instance : LawfulMonad (Routine interface) :=
  LawfulMonad.mk' (Routine interface)
    (fun first => bind_pure_right first)
    (fun _ _ => rfl)
    (fun first second third => bind_assoc first second third)

theorem run_bind (world : World interface σ) (first : Routine interface α)
    (next : α → Routine interface β) (state : σ) :
    (first >>= next).run world state
      = (next (first.run world state).1).run world (first.run world state).2 := by
  induction first generalizing state with
  | finished value => rfl
  | ask request resume ih => exact ih _ _

/-- Puts a routine of one interface where routines of another are run. -/
def embed {wider : Interface} (carry : interface.Request → wider.Request)
    (back : (request : interface.Request) →
      wider.Reply (carry request) → interface.Reply request) :
    Routine interface α → Routine wider α
  | .finished value => .finished value
  | .ask request resume =>
      .ask (carry request) fun reply => (resume (back request reply)).embed carry back

end Routine

end PipelineShell
