import Mathlib.Algebra.Order.Floor.Div
import Mathlib.Data.Int.CardIntervalMod
import RemoteCall.Balance.RoundRobin
import RemoteCall.Proofs.Modified

/-! How often it is whose turn.

Selections that share a balancer draw their numbers one after another, each in one moment, and
answer later, in any order (`Sharing`). So consecutive selections have consecutive numbers
(`Ordered.step`). As long as the number does not start over, the places that it stands for go round
among the candidates: every selection of a window returns a candidate, and each candidate has as
many turns as any other, give or take one (`fair_window`). -/
namespace RemoteCall.Balance.RoundRobin

/-! ### Places of consecutive numbers -/

/-- The numbers that stand for a place are those of one residue. -/
theorem place_eq_iff {n j : Nat} (hj : j < n) (first : Nat) :
    ∃ v, ∀ k, (first + k) % n = j ↔ k ≡ v [MOD n] := by
  have hsum : first + (j + (n - first % n)) = j + n * (first / n + 1) := by
    have hdiv := Nat.mod_add_div first n
    have hlt := Nat.mod_lt first (Nat.zero_lt_of_lt hj)
    rw [Nat.mul_succ]
    omega
  have hv : first + (j + (n - first % n)) ≡ j [MOD n] := by
    rw [hsum]
    exact Nat.add_mul_mod_self_left j n _
  refine ⟨j + (n - first % n), fun k => ⟨fun hk => ?_, fun hk => ?_⟩⟩
  · have hplace : first + k ≡ j [MOD n] := hk.trans (Nat.mod_eq_of_lt hj).symm
    exact Nat.ModEq.add_left_cancel' first (hplace.trans hv.symm)
  · have hplace : first + k ≡ j [MOD n] := (hk.add_left first).trans hv
    exact Eq.trans hplace (Nat.mod_eq_of_lt hj)

/-- Among consecutive numbers every place comes round as often as any other, give or take one. -/
theorem countP_place {n j : Nat} (hj : j < n) (first m : Nat) :
    ∃ v, (List.range m).countP (fun k => (first + k) % n = j) =
      m / n + if v % n < m % n then 1 else 0 := by
  obtain ⟨v, hv⟩ := place_eq_iff hj first
  refine ⟨v, ?_⟩
  rw [← Nat.count_modEq_card m (Nat.zero_lt_of_lt hj) v, Nat.count]
  exact List.countP_congr fun k _ => by simp [hv k]

/-- The candidates at consecutive numbers. -/
def turns (candidates : List Instance) (first m : Nat) : List (Option Instance) :=
  (List.range m).map fun k => candidates[(first + k) % candidates.length]?

theorem count_turns {candidates : List Instance} (hnodup : candidates.Nodup) {i : Instance}
    (hi : i ∈ candidates) (first m : Nat) :
    ∃ v, (turns candidates first m).count (some i) =
      m / candidates.length + if v % candidates.length < m % candidates.length then 1 else 0 := by
  obtain ⟨j, hj, rfl⟩ := List.getElem_of_mem hi
  obtain ⟨v, hv⟩ := countP_place hj first m
  refine ⟨v, hv ▸ ?_⟩
  rw [turns, List.count, List.countP_map]
  refine List.countP_congr fun k _ => ?_
  have hplace := Nat.mod_lt (first + k) (Nat.zero_lt_of_lt hj)
  have hinj := List.getElem?_inj (j := j) hplace hnodup
  rw [List.getElem?_eq_getElem hj] at hinj
  simp [hinj]

theorem mem_turns {candidates : List Instance} (hne : candidates ≠ []) {first m : Nat}
    {answer : Option Instance} (h : answer ∈ turns candidates first m) :
    ∃ i ∈ candidates, answer = some i := by
  obtain ⟨k, -, rfl⟩ := List.mem_map.1 h
  have hplace := Nat.mod_lt (first + k) (List.length_pos_iff.2 hne)
  exact ⟨_, List.getElem_mem hplace, List.getElem?_eq_getElem hplace⟩

/-! ### Selections that share a balancer -/

theorem select_of_ne {r : RoundRobin} {candidates : List Instance} (h : candidates ≠ []) :
    r.select candidates = (candidates[r.next.toNat % candidates.length]?, ⟨r.next + 1⟩) := by
  rw [select, if_neg (by simpa using h)]

/-- A selection that drew its number. -/
structure Call where
  candidates : List Instance
  /-- The balancer as it was when the number was drawn. -/
  found : RoundRobin
  /-- What the selection returned, once it has: an instance, or none. -/
  answer : Option (Option Instance) := none
  deriving DecidableEq

structure Sharing where
  balancer : RoundRobin := {}
  /-- In the order of their numbers. -/
  calls : List Call := []
  deriving DecidableEq

inductive Act where
  /-- Somebody calls for a selection, which draws its number. -/
  | draw (candidates : List Instance)
  /-- A selection answers. -/
  | answer (call : Nat)

namespace Sharing

/-- Without candidates no number is drawn. -/
def step (s : Sharing) : Act → Sharing
  | .draw candidates =>
    if candidates.isEmpty then s
    else {
      balancer := (s.balancer.select candidates).2
      calls := s.calls ++ [{ candidates := candidates, found := s.balancer }] }
  | .answer k =>
    { s with calls := s.calls.modify k fun c =>
        { c with answer := some (c.found.select c.candidates).1 } }

def run (s : Sharing) : List Act → Sharing
  | [] => s
  | act :: rest => (s.step act).run rest

/-- What is always so of the selections since the balancer stood at a number. -/
structure Ordered (start : UInt64) (s : Sharing) : Prop where
  next : s.balancer.next = start + UInt64.ofNat s.calls.length
  found : ∀ k c, s.calls[k]? = some c → c.found.next = start + UInt64.ofNat k
  answered : ∀ c ∈ s.calls, ∀ i, c.answer = some i → (c.found.select c.candidates).1 = i

variable {start : UInt64} {s : Sharing}

theorem ordered_new (start : UInt64) : Ordered start { balancer := ⟨start⟩ } where
  next := (UInt64.add_zero start).symm
  found _ _ hk := by cases hk
  answered _ hc := by cases hc

theorem Ordered.draw (h : Ordered start s) {candidates : List Instance} (hne : candidates ≠ []) :
    Ordered start {
      balancer := (s.balancer.select candidates).2
      calls := s.calls ++ [{ candidates := candidates, found := s.balancer }] } where
  next := by
    rw [select_of_ne hne, h.next, List.length_append, List.length_singleton, UInt64.ofNat_add,
      UInt64.add_assoc]
    rfl
  found k c hk := by
    rw [List.getElem?_append] at hk
    split at hk
    · exact h.found k c hk
    · next hlen =>
      obtain ⟨hlt, rfl⟩ := List.getElem?_eq_some_iff.1 hk
      rw [List.length_singleton] at hlt
      obtain rfl : k = s.calls.length := by omega
      simpa using h.next
  answered c hc i hi := by
    obtain hc | hc := List.mem_append.1 hc
    · exact h.answered c hc i hi
    · obtain rfl := List.mem_singleton.1 hc
      cases hi

/-- An answer is fixed by the number that was drawn. -/
theorem Ordered.answer (h : Ordered start s) (k : Nat) : Ordered start (s.step (.answer k)) := by
  cases hk : s.calls[k]? with
  | none =>
    have hstep : s.step (.answer k) = s := by
      rw [Sharing.step, List.modify_eq_self (by simpa using hk)]
    rwa [hstep]
  | some c =>
    refine ⟨?_, fun j c' hj => ?_, fun c' hc' i hi => ?_⟩
    · rw [Sharing.step, List.length_modify]
      exact h.next
    · obtain ⟨rfl, rfl⟩ | ⟨-, hj⟩ := of_getElem?_modify hk hj
      · exact h.found _ c hk
      · exact h.found j c' hj
    · obtain hc' | rfl := mem_modify hk hc'
      · exact h.answered c' hc' i hi
      · exact Option.some.inj hi

theorem Ordered.step (h : Ordered start s) (act : Act) : Ordered start (s.step act) := by
  cases act with
  | draw candidates =>
    rw [Sharing.step]
    split
    · exact h
    · next hne => exact h.draw fun hnil => hne (hnil ▸ rfl)
  | answer k => exact h.answer k

theorem Ordered.run (h : Ordered start s) (acts : List Act) : Ordered start (s.run acts) := by
  induction acts generalizing s with
  | nil => exact h
  | cons act rest ih => exact ih (h.step act)

section Window
variable {candidates : List Instance} {before window after : List Call} {first : Call}

/-- Consecutive selections have consecutive numbers, unless the number starts over among them. -/
theorem Ordered.toNat_found (h : Ordered start s)
    (hcalls : s.calls = before ++ (first :: window) ++ after)
    (hwrap : first.found.next.toNat + (first :: window).length ≤ UInt64.size) {k : Nat} {c : Call}
    (hk : (first :: window)[k]? = some c) : c.found.next.toNat = first.found.next.toNat + k := by
  have hcall {k : Nat} {c : Call} (hk : (first :: window)[k]? = some c) :
      c.found.next = start + UInt64.ofNat (before.length + k) := by
    refine h.found _ c ?_
    rw [hcalls, List.append_assoc, List.getElem?_append_right (Nat.le_add_right _ k),
      Nat.add_sub_cancel_left]
    exact List.getElem?_append_left (List.getElem?_eq_some_iff.1 hk).1 ▸ hk
  have hnext : c.found.next = first.found.next + UInt64.ofNat k := by
    have hfirst := hcall (k := 0) (c := first) rfl
    rw [hcall hk, hfirst, Nat.add_zero, UInt64.ofNat_add, UInt64.add_assoc]
  have hlt : k < (first :: window).length := (List.getElem?_eq_some_iff.1 hk).1
  have hsmall : k < UInt64.size := by omega
  have hsum : first.found.next.toNat + k < UInt64.size := by omega
  rw [hnext, UInt64.toNat_add, UInt64.toNat_ofNat_of_lt' hsmall]
  exact Nat.mod_eq_of_lt hsum

/-- The answers of consecutive selections are the candidates at consecutive numbers. -/
theorem Ordered.answers (h : Ordered start s) (hne : candidates ≠ [])
    (hcalls : s.calls = before ++ (first :: window) ++ after)
    (hlist : ∀ c ∈ first :: window, c.candidates = candidates)
    (hanswered : ∀ c ∈ first :: window, c.answer.isSome = true)
    (hwrap : first.found.next.toNat + (first :: window).length ≤ UInt64.size) :
    (first :: window).map Call.answer =
      (turns candidates first.found.next.toNat (first :: window).length).map some := by
  refine List.ext_getElem? fun k => ?_
  rw [turns, List.getElem?_map, List.getElem?_map, List.getElem?_map]
  cases hk : (first :: window)[k]? with
  | none =>
    have hle : (first :: window).length ≤ k := List.getElem?_eq_none_iff.1 hk
    rw [List.getElem?_eq_none (by rwa [List.length_range])]
    rfl
  | some c =>
    have hmem := List.mem_of_getElem? hk
    have hlt := (List.getElem?_eq_some_iff.1 hk).1
    obtain ⟨i, hi⟩ := Option.isSome_iff_exists.1 (hanswered c hmem)
    have hc : c ∈ s.calls := by
      rw [hcalls]
      exact List.mem_append_left _ (List.mem_append_right _ hmem)
    have hselected := h.answered c hc i hi
    rw [hlist c hmem, select_of_ne hne, h.toNat_found hcalls hwrap hk] at hselected
    rw [List.getElem?_range hlt, Option.map_some, Option.map_some, Option.map_some, hi, ← hselected]

end Window

theorem ceilDiv_of_pos {m n : Nat} (hn : 0 < n) (h : 0 < m % n) : m ⌈/⌉ n = m / n + 1 := by
  have hsum : m + n - 1 = (m % n - 1) + n * (m / n + 1) := by
    have hdiv := Nat.mod_add_div m n
    rw [Nat.mul_succ]
    omega
  have hlt : m % n - 1 < n := Nat.lt_of_le_of_lt (Nat.sub_le _ 1) (Nat.mod_lt m hn)
  rw [Nat.ceilDiv_eq_add_pred_div, hsum, Nat.add_mul_div_left _ _ hn, Nat.div_eq_of_lt hlt,
    Nat.zero_add]

/-- **Every candidate has its turn as often as any other.** In any window of selections that follow
one another, whoever makes them and in whatever order they return, and as long as the number does
not start over, every selection returns a candidate, and each candidate is returned as often as any
other, give or take one. In a window as long as the list, each is returned exactly once. -/
theorem fair_window {start : UInt64} {acts : List Act} {candidates : List Instance}
    (hne : candidates ≠ []) (hnodup : candidates.Nodup) {before window after : List Call}
    (hcalls : (run { balancer := ⟨start⟩ } acts).calls = before ++ window ++ after)
    (hlist : ∀ c ∈ window, c.candidates = candidates)
    (hreturned : ∀ c ∈ window, c.answer.isSome = true)
    (hwrap : ∀ first ∈ window.head?, first.found.next.toNat + window.length ≤ UInt64.size) :
    (∀ c ∈ window, ∃ i ∈ candidates, c.answer = some (some i)) ∧
      ∀ i ∈ candidates,
        let times := (window.map Call.answer).count (some (some i))
        (times = window.length / candidates.length ∨
            times = window.length ⌈/⌉ candidates.length) ∧
          (window.length = candidates.length → times = 1) := by
  obtain ⟨number, hanswers⟩ : ∃ number, window.map Call.answer =
      (turns candidates number window.length).map some := by
    cases window with
    | nil => exact ⟨0, rfl⟩
    | cons first window =>
      have h : Ordered start (run { balancer := ⟨start⟩ } acts) := (ordered_new start).run acts
      exact ⟨_, h.answers hne hcalls hlist hreturned (hwrap first rfl)⟩
  refine ⟨fun c hc => ?_, fun i hi => ?_⟩
  · have hmem := List.mem_map_of_mem (f := Call.answer) hc
    rw [hanswers] at hmem
    obtain ⟨answer, hturn, hanswer⟩ := List.mem_map.1 hmem
    obtain ⟨i, hi, rfl⟩ := mem_turns hne hturn
    exact ⟨i, hi, hanswer.symm⟩
  · intro times
    obtain ⟨v, hv⟩ := count_turns hnodup hi number window.length
    have htimes : times = (turns candidates number window.length).count (some i) := by
      simp only [times, hanswers]
      exact List.count_map_of_injective _ some (Option.some_injective _) (some i)
    rw [hv] at htimes
    have hpos : 0 < candidates.length := List.length_pos_of_mem hi
    refine ⟨?_, fun hlength => ?_⟩
    · split at htimes
      · next hlt => exact .inr (htimes.trans (ceilDiv_of_pos hpos (Nat.zero_lt_of_lt hlt)).symm)
      · exact .inl htimes
    · rw [hlength, Nat.mod_self, Nat.div_self hpos, if_neg (Nat.not_lt_zero _)] at htimes
      exact htimes

/-- A desk, at a port of its own. -/
def desk (port : UInt16) : Instance := { name := "Desk", host := "10.0.0.3", port := port }

def desks : List Instance := [desk 1, desk 2, desk 3]

/-- Between two selections of somebody else, one of which never returns, four selections among the
desks return out of order. -/
def rush : Sharing :=
  run { balancer := ⟨18446744073709551611⟩ }
    [.draw [desk 9], .draw desks, .draw desks, .answer 2, .draw desks, .draw desks, .answer 4,
      .answer 1, .draw [desk 9], .answer 5, .answer 3]

/-- The number starts over right behind the four selections, and the first desk has the turn that
is one more. -/
theorem fair_window_rush :
    let window := (rush.calls.drop 1).take 4
    (∀ i ∈ desks, (window.map Call.answer).count (some (some i)) = 1 ∨
        (window.map Call.answer).count (some (some i)) = 2) ∧
      window.map Call.answer = [desk 1, desk 2, desk 3, desk 1].map (fun i => some (some i)) ∧
      rush.balancer.next = 1 := by
  intro window
  have hcalls : rush.calls = rush.calls.take 1 ++ window ++ rush.calls.drop 5 := by decide +kernel
  have hlist : ∀ c ∈ window, c.candidates = desks := by decide +kernel
  have hreturned : ∀ c ∈ window, c.answer.isSome = true := by decide +kernel
  have hwrap : ∀ first ∈ window.head?, first.found.next.toNat + window.length ≤ UInt64.size := by
    decide +kernel
  have hlength : window.length = 4 := by decide +kernel
  have hceil : 4 ⌈/⌉ desks.length = 2 := by
    rw [Nat.ceilDiv_eq_add_pred_div]
    rfl
  have hfair := fair_window (by decide) (by decide +kernel) hcalls hlist hreturned hwrap
  refine ⟨fun i hi => ?_, by decide +kernel, by decide +kernel⟩
  have htimes := (hfair.2 i hi).1
  rwa [hlength, hceil] at htimes

end Sharing
end RemoteCall.Balance.RoundRobin
