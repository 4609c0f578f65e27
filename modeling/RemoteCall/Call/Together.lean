import RemoteCall.Call.Process

/-! Several processes at once.

Each goes on from the moment at which it is due; a pause makes it due later and holds up
no other. Of those that are due first the one that stands first takes its step. -/
namespace RemoteCall

/-- What is left of a process, and when it goes on. -/
structure Strand (α : Type) where
  due : Nat
  rest : Process α

def Strand.ended {α : Type} (s : Strand α) : Bool :=
  match s.rest with
  | .done _ => true
  | _ => false

/-- Processes over a state `σ`, and the time. -/
structure Together (α σ : Type) where
  now : Nat := 0
  strands : List (Strand α)
  state : σ

namespace Together
variable {α σ : Type}

def ofProcesses (ps : List (Process α)) (s : σ) : Together α σ :=
  { strands := ps.map fun p => ⟨0, p⟩, state := s }

/-- The first of the strands that are due first. -/
def first : List (Nat × Strand α) → Option (Nat × Strand α)
  | [] => none
  | s :: rest =>
    match first rest with
    | some t => if t.2.due < s.2.due then some t else some s
    | none => some s

/-- The strand that goes on next, and its place. -/
def next? (t : Together α σ) : Option (Nat × Strand α) :=
  first ((t.strands.zipIdx.filter fun (s, _) => !s.ended).map fun (s, n) => (n, s))

/-- Time goes on to a moment. -/
def wait (h : Process.Handler σ) (t : Together α σ) (due : Nat) : Together α σ :=
  if t.now < due then { t with now := due, state := h.pause (due - t.now) t.state } else t

/-- A strand takes its step. -/
def advance (h : Process.Handler σ) (t : Together α σ) (n : Nat) (s : Strand α) : Together α σ :=
  match s.rest with
  | .pause ms rest => { t with strands := t.strands.set n ⟨t.now + ms, rest⟩ }
  | p =>
    let (rest, state) := p.step h t.state
    { t with strands := t.strands.set n ⟨t.now, rest⟩, state := state }

/-- Takes up to so many steps. -/
def takeSteps (h : Process.Handler σ) (t : Together α σ) : (fuel : Nat) → Together α σ
  | 0 => t
  | fuel + 1 =>
    match t.next? with
    | some (n, s) => ((t.wait h s.due).advance h n s).takeSteps h fuel
    | none => t

/-- The results of the processes that have ended, in their order. -/
def results (t : Together α σ) : List (Option α) :=
  t.strands.map fun s => match s.rest with
    | .done x => some x
    | _ => none

end Together
end RemoteCall
