import RemoteCall.Registry.Client

/-! Renewing records one after another.

`Client.renewAll` renews records in one go. Between two requests to the store anything may happen,
so here a renewal of all records is a value (`Round`) with a `step`, which is one request. It goes
by the client's own instances as they were when it began, whatever the client registers or gives
up meanwhile. Without anything in between it is `Client.renewAll` (`run_alone`). -/
namespace RemoteCall.Registry

/-- A turn of a heartbeat, by its task and the moment at which it was due. -/
structure Beat where
  task : TaskId
  due : Nat
  deriving DecidableEq, Repr

structure Round where
  /-- The turn of the heartbeat that it is, unless somebody asked for it. -/
  beat : Option Beat := none
  /-- For how long it lets records live. -/
  ttl : Nat
  /-- What is still to be renewed. -/
  left : Dict Instance
  /-- Whether the first record was found gone, and is to be written back. -/
  gone : Bool := false
  /-- How many records it has renewed. -/
  done : Nat := 0
  deriving DecidableEq, Repr

namespace Round

/-- Goes on to the next record. -/
def pass (r : Round) (rest : Dict Instance) (worked : Bool) : Round :=
  { r with left := rest, gone := false, done := if worked then r.done + 1 else r.done }

def step (r : Round) (s : Store) (now : Nat) : Round × Store :=
  match r.left with
  | [] => (r, s)
  | (node, i) :: rest =>
    if r.gone then
      let (written, s) := s.put now (recordKey node) (Client.recordOf i) r.ttl
      (r.pass rest written.isOk, s)
    else
      match s.refresh now (recordKey node) r.ttl with
      | (.ok true, s) => (r.pass rest true, s)
      | (.ok false, s) => ({ r with gone := true }, s)
      | (.error _, s) => (r.pass rest false, s)

/-- Takes so many steps. -/
def run (r : Round) (s : Store) (now : Nat) : (steps : Nat) → Round × Store
  | 0 => (r, s)
  | steps + 1 => run (r.step s now).1 (r.step s now).2 now steps

/-- Whether the instance at a node is still to be renewed. -/
def awaits (r : Round) (node : String) : Bool := r.left.contains node

/-- Whether it is a turn of a task. -/
def isOf (r : Round) (id : TaskId) : Bool := r.beat.any fun b => b.task = id

/-- Whether the next step is about a node. -/
def isAt (r : Round) (node : String) : Bool := r.left.head?.any fun e => e.1 = node

/-- If by the next step it is through with a node, whether the store is available to it. -/
def verdict? (r : Round) (s : Store) (now : Nat) (node : String) : Option Bool :=
  if r.isAt node && (r.step s now).1.left.length < r.left.length then some s.available else none

/-- One record takes one step or two. -/
theorem run_first (beat : Option Beat) (ttl : Nat) (node : String) (i : Instance)
    (rest : Dict Instance) (done : Nat) (s : Store) (now : Nat) :
    ∃ steps, run ⟨beat, ttl, (node, i) :: rest, false, done⟩ s now steps =
      (⟨beat, ttl, rest, false,
        if (Client.renewOne s now ttl node i).1 then done + 1 else done⟩,
        (Client.renewOne s now ttl node i).2) := by
  rcases hasked : s.refresh now (recordKey node) ttl with ⟨e | renewed, t⟩
  · exact ⟨1, by simp [run, step, pass, Client.renewOne, hasked]⟩
  · cases renewed with
    | true => exact ⟨1, by simp [run, step, pass, Client.renewOne, hasked]⟩
    | false => exact ⟨2, by simp [run, step, pass, Client.renewOne, hasked]⟩

theorem run_add (r : Round) (s : Store) (now first second : Nat) :
    r.run s now (first + second) = (r.run s now first).1.run (r.run s now first).2 now second := by
  induction first generalizing r s with
  | zero => rw [Nat.zero_add, run]
  | succ first ih =>
    rw [Nat.succ_add, run, ih, run]

/-- **Without anything in between all records are renewed in one go.** -/
theorem run_alone (beat : Option Beat) (ttl : Nat) (own : Dict Instance) (done : Nat) (s : Store)
    (now : Nat) :
    ∃ steps, run ⟨beat, ttl, own, false, done⟩ s now steps =
      (⟨beat, ttl, [], false, done + (Client.renewAll s now ttl own).1⟩,
        (Client.renewAll s now ttl own).2) := by
  induction own generalizing s done with
  | nil => exact ⟨0, rfl⟩
  | cons p rest ih =>
    obtain ⟨node, i⟩ := p
    obtain ⟨first, hfirst⟩ := run_first beat ttl node i rest done s now
    obtain ⟨others, hothers⟩ :=
      ih (if (Client.renewOne s now ttl node i).1 then done + 1 else done)
        (Client.renewOne s now ttl node i).2
    refine ⟨first + others, ?_⟩
    rw [run_add, hfirst, hothers]
    cases hworked : (Client.renewOne s now ttl node i).1 with
    | true => simp [Client.renewAll, hworked, Nat.add_assoc, Nat.add_comm]
    | false => simp [Client.renewAll, hworked]

end Round
end RemoteCall.Registry
