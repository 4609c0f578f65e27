import RemoteCall.Dict

/-! Background tasks, at most one running under a key.

Tasks run on their own; the set only holds on to them by key, so that they can be
aborted, and lets go of those that have finished. Every task that was ever started is
kept on record with what became of it, whether the set still holds it or not. -/
namespace RemoteCall.Registry

/-- What has become of a task with states `σ`. -/
inductive Phase (σ : Type) where
  | running (state : σ)
  | finished
  | aborted
  deriving DecidableEq, Repr

def Phase.isRunning {σ : Type} : Phase σ → Bool
  | running _ => true
  | _ => false

/-- A task by its place in the record. -/
abbrev TaskId := Nat

structure TaskSet (σ : Type) where
  /-- The tasks that the set holds, by key. -/
  held : Dict TaskId := []
  /-- Every task that was started. -/
  tasks : List (Phase σ) := []
  deriving Repr

namespace TaskSet
variable {σ : Type}

def phase? (t : TaskSet σ) (id : TaskId) : Option (Phase σ) := t.tasks[id]?

def runs (t : TaskSet σ) (id : TaskId) : Bool :=
  match t.phase? id with
  | some p => p.isRunning
  | none => false

/-- Whether the task held under the key runs. -/
def isRunning (t : TaskSet σ) (key : String) : Bool :=
  match t.held.find? key with
  | some id => t.runs id
  | none => false

def setPhase (t : TaskSet σ) (id : TaskId) (p : Phase σ) : TaskSet σ :=
  { t with tasks := t.tasks.set id p }

/-! ### Use of the set -/

/-- Lets go of the tasks that run no more; says how many. -/
def prune (t : TaskSet σ) : Nat × TaskSet σ :=
  let held := t.held.filter fun (_, id) => t.runs id
  (t.held.length - held.length, { t with held := held })

/-- Starts a task unless one runs under the key; says whether. -/
def spawnIfAbsent (t : TaskSet σ) (key : String) (state : σ) : Bool × TaskSet σ :=
  let t := t.prune.2
  if t.isRunning key then (false, t)
  else (true, {
    held := t.held.insert key t.tasks.length
    tasks := t.tasks ++ [.running state] })

/-- Stops a task unless it has come to its end. -/
def stop (t : TaskSet σ) (id : TaskId) : TaskSet σ :=
  if t.runs id then t.setPhase id .aborted else t

/-- Stops the task under the key and lets go of it; says whether there was one. -/
def abort (t : TaskSet σ) (key : String) : Bool × TaskSet σ :=
  match t.held.find? key with
  | some id => (true, { t.stop id with held := t.held.erase key })
  | none => (false, t)

def abortAll (t : TaskSet σ) : TaskSet σ :=
  t.held.keys.foldl (fun t key => (t.abort key).2) t

/-- The set goes away, and what it holds is stopped. -/
def discard (t : TaskSet σ) : TaskSet σ := t.held.values.foldl stop t

/-- The number of held tasks that run. -/
def running (t : TaskSet σ) : Nat := (t.held.filter fun (_, id) => t.runs id).length

/-- The number of held tasks. -/
def size (t : TaskSet σ) : Nat := t.held.length

/-! ### The tasks themselves -/

/-- A running task comes to its end. -/
def finish (t : TaskSet σ) (id : TaskId) : TaskSet σ :=
  if t.runs id then t.setPhase id .finished else t

/-- A running task goes on in another state. -/
def update (t : TaskSet σ) (id : TaskId) (state : σ) : TaskSet σ :=
  if t.runs id then t.setPhase id (.running state) else t

/-- All running tasks with their states, held or not. -/
def active (t : TaskSet σ) : List (TaskId × σ) :=
  t.tasks.zipIdx.filterMap fun (p, id) =>
    match p with
    | .running state => some (id, state)
    | _ => none

/-- The running tasks whose state is such come to their end. -/
def finishWhere (t : TaskSet σ) (such : σ → Bool) : TaskSet σ :=
  t.active.foldl (fun t (id, state) => if such state then t.finish id else t) t

/-- The number of tasks that came to their end. -/
def completed (t : TaskSet σ) : Nat :=
  (t.tasks.filter fun p => match p with
    | .finished => true
    | _ => false).length

end TaskSet
end RemoteCall.Registry
