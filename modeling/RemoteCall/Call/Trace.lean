import RemoteCall.Call.Process

/-! What was done in the course of a call.

Each step that is carried out leaves an `Event`, with what was asked and what was answered. -/
namespace RemoteCall.Process

inductive Event where
  | discovered (service : String) (found : Except RegistryError (List Instance))
  | cleanedUp (current : List Instance)
  | selected (params : Dict String) (candidates : List Instance) (choice : Option Instance)
  | sent (request : Request) (target : Instance) (outcome : Outcome)
  | released (target : Instance)
  | reported (attempt : Nat) (error : CallError)
  | paused (ms : Nat)

variable {α β σ : Type}

/-- The events of carrying out all steps, first to last. -/
def trace (h : Handler σ) (p : Process α) (s : σ) : List Event :=
  match p with
  | done _ => []
  | discover service next =>
    let (r, s) := h.discover service s
    .discovered service r :: (next r).trace h s
  | cleanup current next => .cleanedUp current :: next.trace h (h.cleanup current s)
  | select params candidates next =>
    let (r, s) := h.select params candidates s
    .selected params candidates r :: (next r).trace h s
  | send request target next =>
    let (r, s) := h.send request target s
    .sent request target r :: (next r).trace h s
  | release target next => .released target :: next.trace h (h.release target s)
  | report attempt error next => .reported attempt error :: next.trace h (h.report attempt error s)
  | pause ms next => .paused ms :: next.trace h (h.pause ms s)

/-- Two processes in a row leave their events in a row. -/
theorem trace_bind (h : Handler σ) (p : Process α) (f : α → Process β) (s : σ) :
    (p.bind f).trace h s = p.trace h s ++ (f (p.run h s).1).trace h (p.run h s).2 := by
  induction p generalizing s with
  | done x => rfl
  | discover service next ih => exact congrArg (_ :: ·) (ih _ _)
  | cleanup current next ih => exact congrArg (_ :: ·) (ih _)
  | select params candidates next ih => exact congrArg (_ :: ·) (ih _ _)
  | send request target next ih => exact congrArg (_ :: ·) (ih _ _)
  | release target next ih => exact congrArg (_ :: ·) (ih _)
  | report attempt error next ih => exact congrArg (_ :: ·) (ih _)
  | pause ms next ih => exact congrArg (_ :: ·) (ih _)

theorem run_map (h : Handler σ) (f : α → β) (p : Process α) (s : σ) :
    (p.map f).run h s = (f (p.run h s).1, (p.run h s).2) := run_bind h p _ s

/-- What is made of the result leaves no event. -/
theorem trace_map (h : Handler σ) (f : α → β) (p : Process α) (s : σ) :
    (p.map f).trace h s = p.trace h s :=
  (trace_bind h p _ s).trans (List.append_nil _)

end RemoteCall.Process
