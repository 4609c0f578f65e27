import RemoteCall.Error
import RemoteCall.Instance
import RemoteCall.Message.Response

/-! The course of a call.

A call discovers instances, selects one, sends its request, waits. A `Process` is what a
call still has to do: one of these steps and how to go on with its result, or nothing
more. Who carries the steps out decides what they mean, and may let other calls step in
between; a `Handler` carries out a whole process in a row. -/
namespace RemoteCall

/-- What comes of a request. -/
abbrev Outcome : Type := Except CallError Response

/-- What a call still has to do before it gives an `α`. -/
inductive Process (α : Type) where
  | done (result : α)
  /-- Ask the registry for the instances of a service. -/
  | discover (service : String) (next : Except RegistryError (List Instance) → Process α)
  /-- Tell the balancer which instances there are. -/
  | cleanup (current : List Instance) (next : Process α)
  /-- Have the balancer select an instance. -/
  | select (params : Dict String) (candidates : List Instance)
      (next : Option Instance → Process α)
  /-- Send a request to an instance and wait for what comes of it. -/
  | send (request : Request) (target : Instance) (next : Outcome → Process α)
  /-- Tell the balancer that the call to an instance is over. -/
  | release (target : Instance) (next : Process α)
  /-- Report that an attempt failed and another follows. -/
  | report (attempt : Nat) (error : CallError) (next : Process α)
  /-- Let time pass. -/
  | pause (ms : Nat) (next : Process α)

namespace Process
variable {α β : Type}

/-- One process after another. -/
def bind (p : Process α) (f : α → Process β) : Process β :=
  match p with
  | done x => f x
  | discover service next => discover service fun r => (next r).bind f
  | cleanup current next => cleanup current (next.bind f)
  | select params candidates next => select params candidates fun r => (next r).bind f
  | send request target next => send request target fun r => (next r).bind f
  | release target next => release target (next.bind f)
  | report attempt error next => report attempt error (next.bind f)
  | pause ms next => pause ms (next.bind f)

instance : Monad Process where
  pure := done
  bind := bind

def map (f : α → β) (p : Process α) : Process β := p.bind fun x => done (f x)

/-- A process that only sends. -/
def sendTo (request : Request) (target : Instance) : Process Outcome := send request target done

/-! ### Carrying out -/

/-- How to carry out each step in a state `σ`. -/
structure Handler (σ : Type) where
  discover : String → σ → Except RegistryError (List Instance) × σ
  cleanup : List Instance → σ → σ
  select : Dict String → List Instance → σ → Option Instance × σ
  send : Request → Instance → σ → Outcome × σ
  release : Instance → σ → σ
  report : Nat → CallError → σ → σ
  pause : Nat → σ → σ

variable {σ : Type}

/-- Carries out one step. -/
def step (h : Handler σ) (p : Process α) (s : σ) : Process α × σ :=
  match p with
  | done x => (done x, s)
  | discover service next =>
    let (r, s) := h.discover service s
    (next r, s)
  | cleanup current next => (next, h.cleanup current s)
  | select params candidates next =>
    let (r, s) := h.select params candidates s
    (next r, s)
  | send request target next =>
    let (r, s) := h.send request target s
    (next r, s)
  | release target next => (next, h.release target s)
  | report attempt error next => (next, h.report attempt error s)
  | pause ms next => (next, h.pause ms s)

/-- Carries out all steps. -/
def run (h : Handler σ) (p : Process α) (s : σ) : α × σ :=
  match p with
  | done x => (x, s)
  | discover service next =>
    let (r, s) := h.discover service s
    (next r).run h s
  | cleanup current next => next.run h (h.cleanup current s)
  | select params candidates next =>
    let (r, s) := h.select params candidates s
    (next r).run h s
  | send request target next =>
    let (r, s) := h.send request target s
    (next r).run h s
  | release target next => next.run h (h.release target s)
  | report attempt error next => next.run h (h.report attempt error s)
  | pause ms next => next.run h (h.pause ms s)

/-- To carry out a process is to carry out its first step and then the rest. -/
theorem run_step (h : Handler σ) (p : Process α) (s : σ) :
    p.run h s = (p.step h s).1.run h (p.step h s).2 := by
  cases p <;> rfl

/-- Two processes in a row are carried out in a row. -/
theorem run_bind (h : Handler σ) (p : Process α) (f : α → Process β) (s : σ) :
    (p.bind f).run h s = (f (p.run h s).1).run h (p.run h s).2 := by
  induction p generalizing s with
  | done x => rfl
  | discover service next ih => exact ih _ _
  | cleanup current next ih => exact ih _
  | select params candidates next ih => exact ih _ _
  | send request target next ih => exact ih _ _
  | release target next ih => exact ih _
  | report attempt error next ih => exact ih _
  | pause ms next ih => exact ih _

end Process
end RemoteCall
