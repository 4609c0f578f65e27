import RemoteCall.Balance.LeastActive

/-! What the counters of the least active balancer show.

A selection adds one at its address, a release takes one away if there is one, and a listing
keeps the counters of the listed addresses and drops all others. The instance that is selected is
the first of those with the least count (`Least`). -/
namespace RemoteCall

namespace Balance

/-- The first element of a list with the least load. -/
structure Least {α : Type} (load : α → Nat) (xs : List α) (x : α) : Prop where
  split : ∃ early late, xs = early ++ x :: late ∧ (∀ y ∈ early, load x < load y) ∧
    ∀ y ∈ late, load x ≤ load y

section Least
variable {α β : Type} {load load' : α → Nat} {xs : List α} {x y : α}

theorem Least.mem (h : Least load xs x) : x ∈ xs := by
  obtain ⟨early, late, rfl, -, -⟩ := h.split
  exact List.mem_append_right early List.mem_cons_self

theorem Least.le (h : Least load xs x) (hy : y ∈ xs) : load x ≤ load y := by
  obtain ⟨early, late, rfl, hearly, hlate⟩ := h.split
  obtain hy | hy := List.mem_append.1 hy
  · exact Nat.le_of_lt (hearly y hy)
  · obtain rfl | hy := List.mem_cons.1 hy
    · exact Nat.le_refl _
    · exact hlate y hy

/-- Loads that agree on the elements agree on the least. -/
theorem Least.congr (h : Least load xs x) (heq : ∀ y ∈ xs, load y = load' y) :
    Least load' xs x := by
  obtain ⟨early, late, rfl, hearly, hlate⟩ := h.split
  have hx : load x = load' x := heq x (by simp)
  refine ⟨early, late, rfl, fun y hy => ?_, fun y hy => ?_⟩
  · rw [← hx, ← heq y (by simp [hy])]
    exact hearly y hy
  · rw [← hx, ← heq y (by simp [hy])]
    exact hlate y hy

theorem least_single (load : α → Nat) (x : α) : Least load [x] x := ⟨[], [], rfl, nofun, nofun⟩

/-- The least of what elements stand for stands for the least of them. -/
theorem Least.of_map {f : α → β} {load : β → Nat} {z : β} (h : Least load (xs.map f) z) :
    ∃ x, z = f x ∧ Least (fun x => load (f x)) xs x := by
  obtain ⟨early, late, hsplit, hearly, hlate⟩ := h.split
  obtain ⟨xs₁, rest, rfl, rfl, hrest⟩ := List.map_eq_append_iff.1 hsplit
  obtain ⟨x, xs₂, rfl, rfl, rfl⟩ := List.map_eq_cons_iff.1 hrest
  exact ⟨x, rfl, xs₁, xs₂, rfl, fun y hy => hearly _ (List.mem_map_of_mem hy),
    fun y hy => hlate _ (List.mem_map_of_mem hy)⟩

end Least

namespace LeastActive
variable {l : LeastActive} {i : Instance} {address : String}

theorem count_acquire (l : LeastActive) (i : Instance) (address : String) :
    (l.acquire i).count address = l.count address + if address = i.address then 1 else 0 := by
  unfold count acquire
  split
  · next h =>
    subst h
    rw [Dict.find?_insert_self]
    rfl
  · next h =>
    rw [Dict.find?_insert_of_ne h]
    rfl

theorem count_release (l : LeastActive) (i : Instance) (address : String) :
    (l.release i).count address = l.count address - if address = i.address then 1 else 0 := by
  unfold release count
  split
  · next n hn =>
    split
    · next h =>
      subst h
      rw [Dict.find?_insert_self, hn]
      rfl
    · next h =>
      rw [Dict.find?_insert_of_ne h]
      rfl
  · next hn =>
    split
    · next h =>
      subst h
      rw [hn]
      rfl
    · rfl

theorem count_cleanupAt (l : LeastActive) (visits : String → Bool) (current : List Instance)
    (address : String) :
    (l.cleanupAt visits current).count address =
      if visits address = true ∧ address ∉ current.map Instance.address then 0
      else l.count address := by
  unfold count
  rw [cleanupAt, Dict.find?_filter_key l.active fun address =>
    !visits address || (current.map Instance.address).contains address]
  by_cases hvisits : visits address = true
  · by_cases hnamed : address ∈ current.map Instance.address
    · simp [hvisits, hnamed]
    · simp [hvisits, hnamed]
  · simp [hvisits]

/-- To go by some counters and then by others is to go by all of them. -/
theorem cleanupAt_cleanupAt (l : LeastActive) (visits visits' : String → Bool)
    (current : List Instance) : (l.cleanupAt visits current).cleanupAt visits' current =
      l.cleanupAt (fun address => visits address || visits' address) current := by
  simp only [cleanupAt, List.filter_filter]
  congr 2
  funext ⟨address, n⟩
  cases visits address <;> cases visits' address <;> simp

/-- Something is the least whenever there is something. -/
theorem least_least {xs : List (Instance × Nat)} (h : xs ≠ []) :
    ∃ x, least xs = some x ∧ Least Prod.snd xs x := by
  induction xs with
  | nil => exact absurd rfl h
  | cons x rest ih =>
    rw [least]
    by_cases hrest : rest = []
    · subst hrest
      exact ⟨x, rfl, least_single Prod.snd x⟩
    · obtain ⟨y, hy, hleast⟩ := ih hrest
      rw [hy]
      dsimp only
      split
      · next hle =>
        exact ⟨x, rfl, ⟨[], rest, rfl, nofun, fun z hz => Nat.le_trans hle (hleast.le hz)⟩⟩
      · next hlt =>
        obtain ⟨early, late, rfl, hearly, hlate⟩ := hleast.split
        refine ⟨y, rfl, ⟨x :: early, late, rfl, fun z hz => ?_, hlate⟩⟩
        obtain rfl | hz := List.mem_cons.1 hz
        · exact Nat.lt_of_not_le hlt
        · exact hearly z hz

/-- Something is chosen whenever there is something, and its count is the least. -/
theorem choose_least {candidates : List Instance} {counts : List Nat} (h : candidates ≠ [])
    (hlength : candidates.length ≤ counts.length ∨ candidates.length ≤ 1) :
    ∃ i, choose counts candidates = some i ∧
      (candidates = [i] ∨ ∃ n, Least Prod.snd (candidates.zip counts) (i, n)) := by
  match candidates, h with
  | [i], _ => exact ⟨i, rfl, .inl rfl⟩
  | i :: j :: rest, _ =>
    have hlength : (i :: j :: rest).length ≤ counts.length := hlength.resolve_right (by simp)
    have hne : (i :: j :: rest).zip counts ≠ [] := by
      cases counts with
      | nil => cases hlength
      | cons n ns => simp
    obtain ⟨⟨k, n⟩, hk, hleast⟩ := least_least hne
    exact ⟨k, congrArg (Option.map Prod.fst) hk, .inr ⟨n, hleast⟩⟩

/-- By the counts of all candidates at one moment the least of them is chosen. -/
theorem choose_map_least {candidates : List Instance} (load : Instance → Nat)
    (h : candidates ≠ []) :
    ∃ i, choose (candidates.map load) candidates = some i ∧ Least load candidates i := by
  have hlength : candidates.length ≤ (candidates.map load).length :=
    Nat.le_of_eq (List.length_map load).symm
  obtain ⟨i, hi, hsingle | ⟨n, hleast⟩⟩ := choose_least h (.inl hlength)
  · exact ⟨i, hi, hsingle ▸ least_single load i⟩
  · rw [← List.map_prod_left_eq_zip] at hleast
    obtain ⟨j, hj, hleast⟩ := hleast.of_map
    obtain rfl : i = j := congrArg Prod.fst hj
    exact ⟨i, hi, hleast⟩

/-- A selection counts what it selects. -/
theorem select_some (l : LeastActive) {instances : List Instance} (h : instances ≠ []) :
    ∃ i, l.select instances = (some i, l.acquire i) ∧
      Least (fun j => l.count j.address) instances i := by
  obtain ⟨i, hi, hleast⟩ := choose_map_least (fun j => l.count j.address) h
  exact ⟨i, by rw [select, selectBy, hi], hleast⟩

end LeastActive
end Balance
end RemoteCall
