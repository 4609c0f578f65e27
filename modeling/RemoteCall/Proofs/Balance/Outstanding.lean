import RemoteCall.Proofs.Balance.InFlight

/-! The counters of the least active balancer, whoever uses it.

Beside the balancer stands a book of the addresses that were selected and not released yet, one line
for each selection (`Usage`). One operation moves the counter of an address along with its lines in
the book, except that a listing without the address forgets the counter (`moves_step`). So if only
what was selected is released, no counter is ever above the book, whatever the listings leave out, and
the counter of an address agrees with it as long as the listings name the address while it is in the
book (`counts_balance`). -/
namespace RemoteCall.Balance.LeastActive

open Flights (Moves)

/-! ### Operations -/

/-- One operation of a balancer. -/
inductive Op where
  | select (candidates : List Instance)
  | release (i : Instance)
  | cleanup (current : List Instance)
  deriving DecidableEq, Repr

/-- Whether an operation that lists instances lists an address. -/
def Op.Names (address : String) : Op → Prop
  | cleanup current => address ∈ current.map Instance.address
  | select _ | release _ => True

instance (address : String) : (op : Op) → Decidable (op.Names address)
  | .cleanup current => inferInstanceAs (Decidable (address ∈ current.map Instance.address))
  | .select _ | .release _ => .isTrue trivial

/-- A balancer and the book beside it. -/
structure Usage where
  balancer : LeastActive := {}
  /-- The addresses that were selected and not released since, once for each selection. -/
  out : List String := []

namespace Usage

/-- How many selections of an address were not released yet. -/
def unreleased (u : Usage) (address : String) : Nat := u.out.count address

/-- What a selection, if there was one, adds to the book. -/
def selected (u : Usage) : Option Instance × LeastActive → Usage
  | (some i, l) => ⟨l, i.address :: u.out⟩
  | (none, l) => ⟨l, u.out⟩

def step (u : Usage) : Op → Usage
  | .select candidates => u.selected (u.balancer.select candidates)
  | .release i => ⟨u.balancer.release i, u.out.erase i.address⟩
  | .cleanup current => ⟨u.balancer.cleanup current, u.out⟩

def run (u : Usage) : List Op → Usage
  | [] => u
  | op :: rest => (u.step op).run rest

/-- Whether an operation that releases an address releases a selection of it. -/
def Owes (u : Usage) : Op → Prop
  | .release i => i.address ∈ u.out
  | .select _ | .cleanup _ => True

instance (u : Usage) : (op : Op) → Decidable (u.Owes op)
  | .release i => inferInstanceAs (Decidable (i.address ∈ u.out))
  | .select _ | .cleanup _ => .isTrue trivial

/-- Whether nothing is released that was not selected before and not released since. -/
def Proper (u : Usage) : List Op → Prop
  | [] => True
  | op :: rest => u.Owes op ∧ (u.step op).Proper rest

instance Proper.decidable : (u : Usage) → (ops : List Op) → Decidable (u.Proper ops)
  | _, [] => .isTrue trivial
  | u, op :: rest =>
    have := Proper.decidable (u.step op) rest
    inferInstanceAs (Decidable (_ ∧ _))

/-- Whether the listings name an address whenever a selection of it was not released yet. -/
def Listed (address : String) (u : Usage) : List Op → Prop
  | [] => True
  | op :: rest => (address ∈ u.out → op.Names address) ∧ (u.step op).Listed address rest

instance Listed.decidable (address : String) :
    (u : Usage) → (ops : List Op) → Decidable (u.Listed address ops)
  | _, [] => .isTrue trivial
  | u, op :: rest =>
    have := Listed.decidable address (u.step op) rest
    inferInstanceAs (Decidable (_ ∧ _))

variable {u : Usage} {address : String}

/-! ### One operation -/

theorem unreleased_pos : 0 < u.unreleased address ↔ address ∈ u.out := List.count_pos_iff

/-- What one operation does to the counter of an address and to its lines in the book. -/
theorem moves_step {op : Op} (h : u.Owes op) (address : String) :
    Moves (op.Names address) (u.balancer.count address) (u.unreleased address)
      ((u.step op).balancer.count address) ((u.step op).unreleased address) := by
  cases op with
  | select candidates =>
    by_cases hempty : candidates = []
    · subst hempty
      exact .still
    · obtain ⟨i, hi, -⟩ := u.balancer.select_some hempty
      have hstep : u.step (.select candidates) = ⟨u.balancer.acquire i, i.address :: u.out⟩ := by
        simp [step, selected, hi]
      have hout : unreleased ⟨u.balancer.acquire i, i.address :: u.out⟩ address =
          u.unreleased address + if address = i.address then 1 else 0 := by
        by_cases haddress : address = i.address
        · simp [unreleased, haddress]
        · simp [unreleased, haddress, List.count_cons_of_ne (Ne.symm haddress)]
      rw [hstep, hout]
      exact .of_select u.balancer i _
  | release i =>
    have hpos : 0 < u.unreleased i.address := unreleased_pos.2 h
    refine .of_release u.balancer i ?_
    by_cases haddress : address = i.address
    · subst haddress
      simp only [step, unreleased, List.count_erase_self, if_true] at hpos ⊢
      omega
    · simp [step, unreleased, haddress, List.count_erase_of_ne haddress]
  | cleanup current => exact .of_cleanupAt u.balancer _ current _ fun hnamed _ => hnamed

/-! ### Many operations -/

/-- **No counter is above the book**, whatever the listings leave out. -/
theorem count_le_run {ops : List Op} (h : u.Proper ops)
    (hle : u.balancer.count address ≤ u.unreleased address) :
    (u.run ops).balancer.count address ≤ (u.run ops).unreleased address := by
  induction ops generalizing u with
  | nil => exact hle
  | cons op rest ih => exact ih h.2 ((moves_step h.1 address).le hle)

/-- A counter that agrees with the book goes on to agree while the address is listed. -/
theorem count_eq_run {ops : List Op} (h : u.Proper ops) (hlisted : u.Listed address ops)
    (heq : u.balancer.count address = u.unreleased address) :
    (u.run ops).balancer.count address = (u.run ops).unreleased address := by
  induction ops generalizing u with
  | nil => exact heq
  | cons op rest ih =>
    have hnamed : u.unreleased address ≠ 0 → op.Names address := fun hzero =>
      hlisted.1 (unreleased_pos.1 (Nat.pos_of_ne_zero hzero))
    exact ih h.2 hlisted.2 ((moves_step h.1 address).eq hnamed heq)

/-- **The counters never show too much, and they are exact where the listings are complete.** After
any operations that release only what was selected, no counter is above the number of selections of
its address that were not released, and so it is zero where there are none. The two are equal for an
address that every listing names while there are some, and among such candidates the selection goes
to the first of those with the fewest. -/
theorem counts_balance {ops : List Op} (h : Proper {} ops) :
    (∀ address, (run {} ops).balancer.count address ≤ (run {} ops).unreleased address) ∧
      (∀ address, address ∉ (run {} ops).out → (run {} ops).balancer.count address = 0) ∧
      (∀ address, Listed address {} ops →
        (run {} ops).balancer.count address = (run {} ops).unreleased address) ∧
      ∀ candidates, candidates ≠ [] → (∀ j ∈ candidates, Listed j.address {} ops) →
        ∃ i, ((run {} ops).balancer.select candidates).1 = some i ∧
          Least (fun j => (run {} ops).unreleased j.address) candidates i := by
  have hle (address : String) :
      (run {} ops).balancer.count address ≤ (run {} ops).unreleased address :=
    count_le_run h (Nat.le_refl 0)
  have heq (address : String) (hlisted : Listed address {} ops) :
      (run {} ops).balancer.count address = (run {} ops).unreleased address :=
    count_eq_run h hlisted rfl
  refine ⟨hle, fun address hout => ?_, heq, fun candidates hne hlisted => ?_⟩
  · have hzero : (run {} ops).unreleased address = 0 := List.count_eq_zero.2 hout
    exact Nat.le_zero.1 (hzero ▸ hle address)
  · obtain ⟨i, hi, hleast⟩ := (run {} ops).balancer.select_some hne
    refine ⟨i, congrArg Prod.fst hi, hleast.congr fun j hj => ?_⟩
    exact heq j.address (hlisted j hj)

/-- A machine, at a port of its own. -/
def machine (port : UInt16) : Instance := { name := "Press", host := "10.0.0.2", port := port }

/-- The third machine is not listed while it is in use, and is released after it is back. -/
def interrupted : List Op :=
  [.select [machine 3], .select [machine 1, machine 2], .cleanup [machine 1, machine 2],
    .select [machine 1, machine 2], .release (machine 1), .select [machine 2],
    .cleanup [machine 1, machine 2, machine 3], .select [machine 3], .release (machine 3)]

/-- The counter of the third machine is below its use, and between the other two the next selection
goes to the one that is idle. -/
theorem counts_balance_interrupted :
    Proper {} interrupted ∧
      (run {} interrupted).balancer.count (machine 3).address = 0 ∧
      (run {} interrupted).unreleased (machine 3).address = 1 ∧
      (run {} interrupted).balancer.count (machine 2).address = 2 ∧
      ((run {} interrupted).balancer.select [machine 2, machine 1]).1 = some (machine 1) := by
  have hproper : Proper {} interrupted := by decide +kernel
  have hlisted : ∀ j ∈ [machine 2, machine 1], Listed j.address {} interrupted := by decide +kernel
  obtain ⟨hone, htwo⟩ : (run {} interrupted).unreleased (machine 1).address = 0 ∧
      (run {} interrupted).unreleased (machine 2).address = 2 := by
    decide +kernel
  obtain ⟨-, -, heq, hselect⟩ := counts_balance hproper
  obtain ⟨i, hi, hleast⟩ := hselect [machine 2, machine 1] nofun hlisted
  refine ⟨hproper, by decide +kernel, by decide +kernel, ?_, ?_⟩
  · rw [heq _ (hlisted (machine 2) (by simp)), htwo]
  · obtain rfl | hmem := List.mem_cons.1 hleast.mem
    · have hle := hleast.le (y := machine 1) (by simp)
      omega
    · obtain rfl := List.mem_singleton.1 hmem
      exact hi

end Usage
end RemoteCall.Balance.LeastActive
