import RemoteCall.Proofs.Pool.Addresses

/-! Who waits to be called.

An attempt listens from when it looks for a connection until it has one or gives up, also
while it is connecting. Whoever listens at an address pool stands in its queue, once, and
nobody else does (`Queues`); so a call that finds nobody in the queue has nobody to hear it.
Once the pool is shut down nobody listens any more (`Silent`): who was waiting then was called,
and who comes later hangs up at once. -/
namespace RemoteCall.Transport

/-- Whether an attempt listens at this point, or has been called. -/
def AttemptPhase.hears : AttemptPhase → Bool
  | looking | claiming | connecting _ | waiting => true
  | arrived | leased _ | done | failed _ => false

namespace Pool

variable {p q : Pool} {a b : AttemptId} {y : Attempt} {k j : PoolId} {x : AddressPool} {e : Ear}

/-- Whether an attempt listens at an address pool. -/
def Listens (p : Pool) (k : PoolId) (a : AttemptId) : Prop :=
  ∃ y, p.attempts[a]? = some y ∧ y.pool = some k ∧ y.ear = .listening

/-- Whether nobody listens. -/
def Silent (p : Pool) : Prop := ∀ k a, ¬ p.Listens k a

/-- From `p` to `q` nobody begins to listen. -/
def Quieter (p q : Pool) : Prop := ∀ k a, q.Listens k a → p.Listens k a

structure Queues (p : Pool) : Prop where
  nodup : ∀ (k : PoolId) (x : AddressPool), p.pools[k]? = some x → x.waiting.Nodup
  waits : ∀ (k : PoolId) (x : AddressPool), p.pools[k]? = some x →
    ∀ a, a ∈ x.waiting ↔ p.Listens k a
  off : ∀ y ∈ p.attempts, y.phase.hears = false → y.ear = .off
  /-- Attempts are sent to address pools that exist. -/
  housed : ∀ y ∈ p.attempts, ∀ k, y.pool = some k → k < p.pools.length

/-! ### Who listens after a change -/

theorem attempts_setEar (ha : p.attempts[a]? = some y) (e : Ear) :
    (p.setEar a e).attempts[a]? = some { y with ear := e } := by
  simp [setEar, modifyAttempt, ha]

theorem attempts_setEar_of_ne (h : b ≠ a) (e : Ear) :
    (p.setEar a e).attempts[b]? = p.attempts[b]? := by
  simp [setEar, modifyAttempt, List.getElem?_modify_ne _ _ (Ne.symm h)]

theorem listens_setPhase (p : Pool) (a : AttemptId) (phase : AttemptPhase) :
    (p.setPhase a phase).Listens k b ↔ p.Listens k b := by
  simp only [Listens, setPhase, modifyAttempt, List.getElem?_modify]
  cases p.attempts[b]? with
  | none => simp
  | some y => by_cases hab : a = b <;> simp [hab]

theorem listens_setEar (ha : p.attempts[a]? = some y) :
    (p.setEar a e).Listens k b ↔
      if b = a then y.pool = some k ∧ e = .listening else p.Listens k b := by
  split
  · next hba =>
    subst hba
    simp [Listens, attempts_setEar ha]
  · next hba => simp only [Listens, attempts_setEar_of_ne hba]

/-- Nobody stands in two queues. -/
theorem Listens.unique (h : p.Listens k a) (h' : p.Listens j a) : k = j := by
  obtain ⟨y, hy, hk, -⟩ := h
  obtain ⟨z, hz, hj, -⟩ := h'
  obtain rfl := Option.some.inj (hy.symm.trans hz)
  exact Option.some.inj (hk.symm.trans hj)

theorem not_listens (ha : p.attempts[a]? = some y) (hy : y.ear = .listening → y.pool = none)
    (k : PoolId) : ¬ p.Listens k a := by
  rintro ⟨z, hz, hk, hear⟩
  obtain rfl := Option.some.inj (ha.symm.trans hz)
  simp [hy hear] at hk

theorem Listens.ear (h : p.Listens k a) (ha : p.attempts[a]? = some y) : y.ear = .listening := by
  obtain ⟨z, hz, -, hear⟩ := h
  exact Option.some.inj (hz.symm.trans ha) ▸ hear

/-! ### One change -/

namespace Queues

/-- Nothing that has to do with calls changes. -/
theorem same (h : Queues p) (hpools : q.pools = p.pools) (hattempts : q.attempts = p.attempts) :
    Queues q := by
  refine ⟨fun k x hk => h.nodup k x (hpools ▸ hk), fun k x hk a => ?_, hattempts ▸ h.off,
    hpools ▸ hattempts ▸ h.housed⟩
  rw [h.waits k x (hpools ▸ hk), Listens, Listens, hattempts]

theorem modifyPool (h : Queues p) (j : PoolId) {f : AddressPool → AddressPool}
    (hf : ∀ x, (f x).waiting = x.waiting) : Queues (p.modifyPool j f) := by
  have hwaiting {k : PoolId} {x : AddressPool} (hk : (p.modifyPool j f).pools[k]? = some x) :
      ∃ z, p.pools[k]? = some z ∧ x.waiting = z.waiting := by
    obtain ⟨z, hz, ⟨-, rfl⟩ | ⟨-, rfl⟩⟩ := entry_modifyPool hk
    · exact ⟨z, hz, hf z⟩
    · exact ⟨x, hz, rfl⟩
  refine ⟨fun k x hk => ?_, fun k x hk a => ?_, h.off, ?_⟩
  · obtain ⟨z, hz, heq⟩ := hwaiting hk
    exact heq ▸ h.nodup k z hz
  · obtain ⟨z, hz, heq⟩ := hwaiting hk
    rw [heq]
    exact h.waits k z hz a
  · simpa [Pool.modifyPool] using h.housed

/-- An attempt goes on. It has hung up before it goes where nobody listens. -/
theorem setPhase (h : Queues p) (ha : p.attempts[a]? = some y) {phase : AttemptPhase}
    (hoff : phase.hears = false → y.ear = .off) : Queues (p.setPhase a phase) := by
  refine ⟨h.nodup, fun k x hk b => ?_, fun z hz hhears => ?_, fun z hz => ?_⟩
  · rw [listens_setPhase]
    exact h.waits k x hk b
  · obtain hz | rfl := mem_modify ha hz
    · exact h.off z hz hhears
    · exact hoff hhears
  · obtain hz | rfl := mem_modify ha hz
    · exact h.housed z hz
    · exact h.housed y (List.mem_of_getElem? ha)

/-- An attempt that does not listen hears something else. -/
theorem setEar (h : Queues p) (ha : p.attempts[a]? = some y) (hy : ∀ k, ¬ p.Listens k a)
    (he : e ≠ .listening) (hoff : y.phase.hears = false → e = .off) : Queues (p.setEar a e) := by
  refine ⟨h.nodup, fun k x hk b => ?_, fun z hz hhears => ?_, fun z hz => ?_⟩
  · rw [h.waits k x hk b, listens_setEar ha]
    split
    · next hba =>
      subst hba
      exact ⟨fun hlistens => absurd hlistens (hy k), fun hlistens => absurd hlistens.2 he⟩
    · exact Iff.rfl
  · obtain hz | rfl := mem_modify ha hz
    · exact h.off z hz hhears
    · exact hoff hhears
  · obtain hz | rfl := mem_modify ha hz
    · exact h.housed z hz
    · exact h.housed y (List.mem_of_getElem? ha)

/-- An attempt enters or leaves the queue of its address pool as it begins or stops to
listen. -/
theorem turn (h : Queues p) (ha : p.attempts[a]? = some y) (hj : y.pool = some j)
    (hpool : p.pools[j]? = some x) {f : AddressPool → AddressPool}
    (hnodup : (f x).waiting.Nodup)
    (hmem : ∀ b, b ∈ (f x).waiting ↔ if b = a then e = .listening else b ∈ x.waiting)
    (hoff : y.phase.hears = false → e = .off) : Queues ((p.modifyPool j f).setEar a e) := by
  have hlength : ((p.modifyPool j f).setEar a e).pools.length = p.pools.length := by
    simp [Pool.modifyPool, Pool.setEar, modifyAttempt]
  refine ⟨fun k z hk => ?_, fun k z hk b => ?_, fun z hz hhears => ?_, fun z hz => ?_⟩
  · obtain ⟨z', hz, ⟨rfl, rfl⟩ | ⟨-, rfl⟩⟩ := entry_modifyPool (p := p) hk
    · obtain rfl := Option.some.inj (hpool.symm.trans hz)
      exact hnodup
    · exact h.nodup k z hz
  · rw [listens_setEar (p := p.modifyPool j f) ha]
    obtain ⟨z', hz, ⟨rfl, rfl⟩ | ⟨hne, rfl⟩⟩ := entry_modifyPool (p := p) hk
    · obtain rfl := Option.some.inj (hpool.symm.trans hz)
      rw [hmem]
      split
      · simp [hj]
      · exact h.waits j x hpool b
    · rw [h.waits k z hz]
      split
      · next hba =>
        subst hba
        -- Whoever is sent to another address pool does not stand in this queue.
        have hother : y.pool ≠ some k := fun hk => hne (Option.some.inj (hj.symm.trans hk))
        constructor
        · rintro ⟨y', hy', hk, -⟩
          exact absurd (Option.some.inj (ha.symm.trans hy') ▸ hk) hother
        · exact fun hk => absurd hk.1 hother
      · exact Iff.rfl
  · obtain hz | rfl := mem_modify (l := p.attempts) ha hz
    · exact h.off z hz hhears
    · exact hoff hhears
  · rw [hlength]
    obtain hz | rfl := mem_modify (l := p.attempts) ha hz
    · exact h.housed z hz
    · exact h.housed y (List.mem_of_getElem? ha)

/-! ### Calls -/

/-- Who listens has come to where attempts listen. -/
theorem hears (h : Queues p) (ha : p.attempts[a]? = some y) (hear : y.ear = .listening) :
    y.phase.hears = true := by
  by_contra hhears
  have := h.off y (List.mem_of_getElem? ha) (Bool.eq_false_iff.2 hhears)
  simp [hear] at this

/-- The first in a queue listens, and is called with the queue moved up. -/
theorem callFirst (h : Queues p) {rest : List AttemptId} (hk : p.pools[k]? = some x)
    (hwaiting : x.waiting = b :: rest) :
    ∃ y, p.attempts[b]? = some y ∧ y.pool = some k ∧ y.ear = .listening ∧
      rest.Nodup ∧
      ∀ a, a ∈ rest ↔ if a = b then Ear.called = .listening else a ∈ x.waiting := by
  have hnodup := h.nodup k x hk
  rw [hwaiting, List.nodup_cons] at hnodup
  obtain ⟨y, hy, hpool, hear⟩ := (h.waits k x hk b).1 (hwaiting ▸ List.mem_cons_self)
  refine ⟨y, hy, hpool, hear, hnodup.2, fun a => ?_⟩
  split
  · next hab => simp [hab, hnodup.1]
  · next hab => simp [hwaiting, hab]

theorem callOne (h : Queues p) (k : PoolId) : Queues (p.callOne k) := by
  unfold Pool.callOne
  split
  · exact h
  · next x hk =>
    split
    · exact h.modifyPool k fun _ => rfl
    · next b rest hwaiting =>
      obtain ⟨y, hy, hpool, hear, hnodup, hmem⟩ := h.callFirst hk hwaiting
      exact h.turn hy hpool hk (f := fun x => { x with waiting := rest }) hnodup hmem
        fun hno => by simp [h.hears hy hear] at hno

/-- Nobody is called who does not listen. -/
theorem attempts_callOne (h : Queues p) (ha : p.attempts[a]? = some y) (hy : y.ear ≠ .listening)
    (k : PoolId) : (p.callOne k).attempts[a]? = some y := by
  unfold Pool.callOne
  split
  · exact ha
  · next x hk =>
    split
    · exact ha
    · next b rest hwaiting =>
      obtain ⟨z, hz, -, hear, -⟩ := h.callFirst hk hwaiting
      have hab : a ≠ b := by
        rintro rfl
        exact hy (Option.some.inj (ha.symm.trans hz) ▸ hear)
      exact (attempts_setEar_of_ne hab .called).trans ha

/-- Who hangs up leaves the queue. -/
theorem erased (h : Queues p) (hk : p.pools[k]? = some x) (a : AttemptId) :
    (x.waiting.erase a).Nodup ∧
      ∀ b, b ∈ x.waiting.erase a ↔ if b = a then Ear.off = .listening else b ∈ x.waiting := by
  have hnodup := h.nodup k x hk
  refine ⟨hnodup.erase a, fun b => ?_⟩
  rw [hnodup.mem_erase_iff]
  split
  · next hba => simp [hba]
  · next hba => simp [hba]

theorem house (h : Queues p) (ha : p.attempts[a]? = some y) (hj : y.pool = some j) :
    ∃ x, p.pools[j]? = some x :=
  ⟨_, List.getElem?_eq_getElem (h.housed y (List.mem_of_getElem? ha) j hj)⟩

theorem not_listens_none (h : Queues p) (hk : p.pools[k]? = none) (a : AttemptId) :
    ¬ p.Listens k a := by
  rintro ⟨y, hy, hpool, -⟩
  obtain ⟨x, hx⟩ := h.house hy hpool
  simp [hk] at hx

theorem hangUp (h : Queues p) (a : AttemptId) : Queues (p.hangUp a) := by
  unfold Pool.hangUp
  split
  · exact h
  · next y ha =>
    have hquiet (hy : y.ear = .listening → y.pool = none) : Queues (p.setEar a .off) :=
      h.setEar ha (not_listens ha hy) (by decide) fun _ => rfl
    dsimp only
    split
    · next j _ hj =>
      obtain ⟨x, hpool⟩ := h.house ha hj
      obtain ⟨hnodup, hmem⟩ := h.erased hpool a
      exact h.turn ha hj hpool (f := fun y => { y with waiting := y.waiting.erase a }) hnodup hmem
        fun _ => rfl
    · next j hear _ => exact (hquiet (by simp [hear])).callOne j
    · next hno _ => exact hquiet fun hear => Option.eq_none_iff_forall_ne_some.2 (hno · hear)

/-- Who hung up hears nothing. -/
theorem attempts_hangUp (h : Queues p) (ha : p.attempts[a]? = some y) :
    (p.hangUp a).attempts[a]? = some { y with ear := .off } := by
  unfold Pool.hangUp
  rw [ha]
  dsimp only
  split
  · exact attempts_setEar ha .off
  · next j hear _ =>
    have hquiet : Queues (p.setEar a .off) :=
      h.setEar ha (not_listens ha (by simp [hear])) (by decide) fun _ => rfl
    exact hquiet.attempts_callOne (attempts_setEar ha .off) (by simp) j
  · exact attempts_setEar ha .off

/-- Only a spare call is used up by an attempt that listens and hangs up at once. -/
theorem hangUp_startListening (h : Queues p) (ha : p.attempts[a]? = some y)
    (hk : y.pool = some k) (hear : y.ear = .off) :
    (p.startListening a k).hangUp a = p.modifyPool k fun x => { x with spareCall := false } := by
  obtain ⟨x, hpool⟩ := h.house ha hk
  have hnot : a ∉ x.waiting := fun hmem =>
    not_listens ha (by simp [hear]) k ((h.waits k x hpool a).1 hmem)
  have hback : (p.attempts.modify a fun z => { z with ear := .off }) = p.attempts :=
    modify_of_fixed ha (by rw [← hear])
  unfold Pool.startListening
  rw [hpool]
  dsimp only
  split
  · unfold Pool.hangUp
    rw [attempts_setEar (p := p.modifyPool k _) ha]
    simp only [Pool.setEar, modifyAttempt, List.modify_modify_eq]
    exact congrArg (fun as => { p.modifyPool k _ with attempts := as }) hback
  · next hspare =>
    have hleft : (p.pools.modify k fun z => { z with waiting := (z.waiting ++ [a]).erase a }) =
        p.pools.modify k fun z => { z with spareCall := false } := by
      rw [modify_of_fixed hpool, modify_of_fixed hpool]
      · rw [← Bool.eq_false_iff.2 hspare]
      · rw [List.erase_append_right _ hnot]
        simp
    unfold Pool.hangUp
    rw [attempts_setEar (p := p.modifyPool k _) ha]
    simp only [hk, Pool.setEar, modifyAttempt, Pool.modifyPool, List.modify_modify_eq]
    exact congrArg₂ (fun as ps => { p with attempts := as, pools := ps }) hback hleft

/-! ### New entries -/

theorem arrive (h : Queues p) (hear : y.ear = .off) (hk : ∀ k, y.pool = some k → k < p.pools.length) :
    Queues { p with attempts := p.attempts ++ [y] } := by
  refine ⟨h.nodup, fun k x hk b => ?_, fun z hz hhears => ?_, fun z hz => ?_⟩
  · rw [h.waits k x hk]
    constructor
    · rintro ⟨z, hz, hrest⟩
      exact ⟨z, (List.getElem?_append_left (List.getElem?_eq_some_iff.1 hz).1).trans hz, hrest⟩
    · rintro ⟨z, hz, hpool, hlistens⟩
      by_cases hlt : b < p.attempts.length
      · exact ⟨z, (List.getElem?_append_left hlt).symm.trans hz, hpool, hlistens⟩
      · rw [List.getElem?_append_right (Nat.le_of_not_lt hlt)] at hz
        obtain rfl := List.mem_singleton.1 (List.mem_of_getElem? hz)
        simp [hear] at hlistens
  · obtain hz | hz := List.mem_append.1 hz
    · exact h.off z hz hhears
    · rw [List.mem_singleton.1 hz, hear]
  · obtain hz | hz := List.mem_append.1 hz
    · exact h.housed z hz
    · rw [List.mem_singleton.1 hz]
      exact hk

/-- Nobody waits at a new address pool. -/
theorem create (h : Queues p) (address : String) : Queues (p.create address).2 := by
  have entry {k : PoolId} {x : AddressPool} (hk : (p.create address).2.pools[k]? = some x) :
      p.pools[k]? = some x ∨ k = p.pools.length ∧ x.waiting = [] := by
    by_cases hlt : k < p.pools.length
    · exact .inl ((List.getElem?_append_left hlt).symm.trans hk)
    · have hle : k < p.pools.length + 1 := by
        simpa [Pool.create] using (List.getElem?_eq_some_iff.1 hk).1
      obtain rfl := Nat.le_antisymm (Nat.le_of_lt_succ hle) (Nat.le_of_not_lt hlt)
      refine .inr ⟨rfl, ?_⟩
      obtain rfl := Option.some.inj (List.getElem?_concat_length.symm.trans hk)
      rfl
  refine ⟨fun k x hk => ?_, fun k x hk a => ?_, h.off, fun y hy k hk => ?_⟩
  · obtain hk | ⟨-, hwaiting⟩ := entry hk
    · exact h.nodup k x hk
    · simp [hwaiting]
  · obtain hk | ⟨rfl, hwaiting⟩ := entry hk
    · exact h.waits k x hk a
    · simp only [hwaiting, List.not_mem_nil, false_iff]
      rintro ⟨y, hy, hpool, -⟩
      exact Nat.lt_irrefl _ (h.housed y (List.mem_of_getElem? hy) _ hpool)
  · simp only [Pool.create, List.length_append, List.length_singleton]
    exact Nat.lt_succ_of_lt (h.housed y hy k hk)

/-! ### Everybody is called -/

/-- What everybody who is called hears. -/
theorem attempts_callEach (as : List AttemptId) (p : Pool) (b : AttemptId) :
    (as.foldl (fun p a => p.setEar a .calledWithAll) p).attempts[b]? =
      if b ∈ as then (p.attempts[b]?).map fun y => { y with ear := .calledWithAll }
      else p.attempts[b]? := by
  induction as generalizing p with
  | nil => simp
  | cons a rest ih =>
    rw [List.foldl_cons, ih]
    by_cases hba : b = a
    · cases hb : p.attempts[a]? <;> simp [hba, hb, Pool.setEar, modifyAttempt]
    · simp [hba, attempts_setEar_of_ne hba]

theorem pools_callEach (as : List AttemptId) (p : Pool) :
    (as.foldl (fun p a => p.setEar a .calledWithAll) p).pools = p.pools := by
  induction as generalizing p with
  | nil => rfl
  | cons a rest ih => exact ih (p.setEar a .calledWithAll)

theorem callAll (h : Queues p) (k : PoolId) :
    Queues (p.callAll k) ∧ ∀ j a, (p.callAll k).Listens j a → p.Listens j a ∧ j ≠ k := by
  unfold Pool.callAll
  split
  · next hnone =>
    refine ⟨h, fun j a hlistens => ⟨hlistens, ?_⟩⟩
    rintro rfl
    exact h.not_listens_none hnone a hlistens
  · next x hk =>
    generalize hr : x.waiting.foldl (fun p a => p.setEar a .calledWithAll)
      (p.modifyPool k fun x => { x with waiting := [] }) = r
    have hattempts (b : AttemptId) : r.attempts[b]? = if b ∈ x.waiting then
        (p.attempts[b]?).map fun y => { y with ear := .calledWithAll } else p.attempts[b]? := by
      rw [← hr, attempts_callEach]
      rfl
    have hpools : r.pools = p.pools.modify k fun x => { x with waiting := [] } := by
      rw [← hr, pools_callEach]
      rfl
    have hlistens (j : PoolId) (b : AttemptId) : r.Listens j b ↔ p.Listens j b ∧ j ≠ k := by
      rw [Listens, hattempts]
      split
      · next hmem =>
        have hk := (h.waits k x hk b).1 hmem
        constructor
        · rintro ⟨y, hy, -, hear⟩
          obtain ⟨z, -, rfl⟩ := Option.map_eq_some_iff.1 hy
          cases hear
        · exact fun hj => absurd (hj.1.unique hk) hj.2
      · next hmem =>
        refine ⟨fun hj => ⟨hj, ?_⟩, And.left⟩
        rintro rfl
        exact hmem ((h.waits j x hk b).2 hj)
    refine ⟨⟨fun j z hj => ?_, fun j z hj b => ?_, fun z hz hhears => ?_, fun z hz j hj => ?_⟩,
      fun j b => (hlistens j b).1⟩
    · rw [hpools] at hj
      obtain ⟨z', hz, ⟨rfl, rfl⟩ | ⟨-, rfl⟩⟩ := entry_modifyPool (p := p) hj
      · exact List.nodup_nil
      · exact h.nodup j z hz
    · rw [hpools] at hj
      rw [hlistens]
      obtain ⟨z', hz, ⟨rfl, rfl⟩ | ⟨hne, rfl⟩⟩ := entry_modifyPool (p := p) hj
      · simp
      · rw [h.waits j z hz]
        exact ⟨fun hb => ⟨hb, Ne.symm hne⟩, And.left⟩
    · obtain ⟨b, hb⟩ := List.getElem?_of_mem hz
      rw [hattempts] at hb
      split at hb
      · next hmem =>
        obtain ⟨y, hy, -, hear⟩ := (h.waits k x hk b).1 hmem
        obtain ⟨y', hy', rfl⟩ := Option.map_eq_some_iff.1 hb
        obtain rfl := Option.some.inj (hy.symm.trans hy')
        exact absurd ((h.hears hy hear).symm.trans hhears) (by decide)
      · exact h.off z (List.mem_of_getElem? hb) hhears
    · obtain ⟨b, hb⟩ := List.getElem?_of_mem hz
      rw [hpools, List.length_modify]
      rw [hattempts] at hb
      split at hb
      · obtain ⟨y, hy, rfl⟩ := Option.map_eq_some_iff.1 hb
        exact h.housed y (List.mem_of_getElem? hy) j hj
      · exact h.housed z (List.mem_of_getElem? hb) j hj

end Queues

/-! ### The flag of the end -/

section Flag
variable (p : Pool) (a : AttemptId) (k : PoolId) (c : ConnectionId)

theorem shutDown_callOne : (p.callOne k).shutDown = p.shutDown :=
  (congrArg Pool.shutDown (hushed_callOne p k) :)

theorem shutDown_hangUp : (p.hangUp a).shutDown = p.shutDown :=
  (congrArg Pool.shutDown (hushed_hangUp p a) :)

theorem shutDown_startListening : (p.startListening a k).shutDown = p.shutDown :=
  (congrArg Pool.shutDown (hushed_startListening p a k) :)

theorem shutDown_giveRoom : (p.giveRoom k).shutDown = p.shutDown := shutDown_callOne _ k

theorem shutDown_lease : (p.lease a k c).shutDown = p.shutDown := shutDown_hangUp _ a

theorem shutDown_close : (p.close c).shutDown = p.shutDown := by
  unfold Pool.close
  split
  · split
    · exact shutDown_giveRoom _ _
    · rfl
  · rfl

theorem shutDown_listen : (p.listen a k).shutDown = p.shutDown := by
  unfold Pool.listen
  dsimp only
  split
  · exact (shutDown_hangUp _ a).trans (shutDown_startListening p a k)
  · exact shutDown_startListening p a k

theorem shutDown_take : (p.take a k c).shutDown = p.shutDown := by
  unfold Pool.take
  split
  · rfl
  · split
    · dsimp only
      split
      · exact shutDown_lease _ a k c
      · exact shutDown_close _ c
    · rfl

theorem shutDown_release : (p.release a k c).shutDown = p.shutDown := by
  unfold Pool.release
  dsimp only
  split
  · exact (shutDown_callOne _ k).trans (shutDown_close _ c)
  · exact shutDown_callOne _ k

theorem shutDown_prune : p.prune.shutDown = p.shutDown := by
  have each (f : Pool → PoolId → AddressPool → AddressPool) (ks : List PoolId) (q : Pool) :
      (ks.foldl (fun q k => q.modifyPool k (f q k)) q).shutDown = q.shutDown := by
    induction ks generalizing q with
    | nil => rfl
    | cons k rest ih => exact ih (q.modifyPool k (f q k))
  exact each (fun q _ x => { x with idle := x.idle.filter fun c => !q.socketClosed c }) _ p

end Flag

/-- A pool is shut down by nothing but its end. -/
theorem shutDown_step (p : Pool) {action : Action} (haction : action ≠ .shutDown) :
    (p.step action).shutDown = p.shutDown := by
  have onAttempt (a : AttemptId) (action : Action) : (p.onAttempt a action).shutDown = p.shutDown := by
    refine onAttempt_of (P := fun q => q.shutDown = p.shutDown) rfl fun y k _ _ => ?_
    refine stepAttempt_of (P := fun q => q.shutDown = p.shutDown) rfl ?_ ?_ ?_ ?_ ?_ ?_ ?_ ?_ ?_ ?_ ?_
    · exact fun _ => shutDown_listen p a k
    · exact fun c _ => shutDown_take p a k c
    · exact fun _ _ _ _ => rfl
    · intro _
      unfold Pool.claim
      split <;> rfl
    · exact fun c _ => shutDown_lease _ a k c
    · exact fun c e _ => (shutDown_hangUp _ a).trans (shutDown_giveRoom _ k)
    · exact fun _ c _ _ => shutDown_hangUp _ a
    · exact fun _ _ => rfl
    · exact fun e _ => shutDown_hangUp p a
    · exact fun _ => shutDown_hangUp p a
    · exact fun c _ => shutDown_release p a k c
  have onSocket (c : ConnectionId) (f : Socket → Pool) (hf : ∀ s, (f s).shutDown = p.shutDown) :
      (p.onSocket c f).shutDown = p.shutDown :=
    onSocket_of (P := fun q => q.shutDown = p.shutDown) rfl fun s _ => hf s
  have onWarmUp (w : WarmUpId) (f : Pool → WarmUpId → WarmUp → Pool)
      (hf : ∀ z, (f p w z).shutDown = p.shutDown) : (p.onWarmUp w f).shutDown = p.shutDown :=
    onWarmUp_of (P := fun q => q.shutDown = p.shutDown) rfl fun z _ => hf z
  cases action with
  | arrive address =>
    show (p.arrive address).shutDown = _
    have hpool : (p.poolFor address).2.shutDown = p.shutDown := by
      unfold Pool.poolFor
      split
      · rfl
      · exact shutDown_prune p
    unfold Pool.arrive
    split
    · rfl
    · exact hpool
  | listen a | take a _ | noneIdle a | claim a | connected a | refused a _ | wake a | timeOut a
  | release a | abandon a => exact onAttempt a _
  | queue c => exact onSocket c _ fun s => by split <;> rfl
  | write c => rfl
  | mark c => exact onSocket c _ fun s => by split <;> rfl
  | free c =>
    refine onSocket c _ fun s => ?_
    split
    · exact shutDown_giveRoom _ _
    · rfl
  | warm w =>
    refine onWarmUp w _ fun z => ?_
    unfold Pool.warm
    split
    · split <;> rfl
    · rfl
  | warmConnected w =>
    refine onWarmUp w _ fun z => ?_
    unfold Pool.warmConnected
    split
    · exact shutDown_callOne _ _
    · rfl
  | warmRefused w =>
    refine onWarmUp w _ fun z => ?_
    unfold Pool.warmRefused
    split
    · exact shutDown_giveRoom _ _
    · rfl
  | shutDown => exact absurd rfl haction
  | prune => exact shutDown_prune p

/-! ### Who stops to listen -/

namespace Quieter

theorem refl (p : Pool) : Quieter p p := fun _ _ => id

theorem trans (h : Quieter p q) {r : Pool} (h' : Quieter q r) : Quieter p r :=
  fun k a => h k a ∘ h' k a

theorem silent (h : Quieter p q) (hp : Silent p) : Silent q := fun k a => hp k a ∘ h k a

theorem same (h : Quieter p q) {r : Pool} (hattempts : r.attempts = q.attempts) : Quieter p r := by
  intro k a hlistens
  rw [Listens, hattempts] at hlistens
  exact h k a hlistens

theorem modifyPool (h : Quieter p q) (k : PoolId) (f : AddressPool → AddressPool) :
    Quieter p (q.modifyPool k f) := h.same rfl

theorem setState (h : Quieter p q) (c : ConnectionId) (state : SocketState) :
    Quieter p (q.setState c state) := h.same rfl

theorem setPhase (h : Quieter p q) (a : AttemptId) (phase : AttemptPhase) :
    Quieter p (q.setPhase a phase) := fun k b hb => h k b ((listens_setPhase q a phase).1 hb)

theorem setEar (h : Quieter p q) (a : AttemptId) (he : e ≠ .listening) :
    Quieter p (q.setEar a e) := by
  intro k b hb
  refine h k b ?_
  cases ha : q.attempts[a]? with
  | none =>
    have heq : (q.setEar a e).attempts = q.attempts := List.modify_eq_self (by simpa using ha)
    rwa [Listens, heq] at hb
  | some y =>
    rw [listens_setEar ha] at hb
    split at hb
    · exact absurd hb.2 he
    · exact hb

theorem callOne (h : Quieter p q) (k : PoolId) : Quieter p (q.callOne k) := by
  unfold Pool.callOne
  split
  · exact h
  · split
    · exact h.same rfl
    · exact (h.modifyPool k _).setEar _ (by decide)

theorem hangUp (h : Quieter p q) (a : AttemptId) : Quieter p (q.hangUp a) := by
  have hoff := h.setEar (e := .off) a (by decide)
  unfold Pool.hangUp
  split
  · exact h
  · dsimp only
    split
    · exact hoff.same rfl
    · exact hoff.callOne _
    · exact hoff

theorem giveRoom (h : Quieter p q) (k : PoolId) : Quieter p (q.giveRoom k) :=
  (h.modifyPool k _).callOne k

theorem close (h : Quieter p q) (c : ConnectionId) : Quieter p (q.close c) := by
  unfold Pool.close
  split
  · split
    · exact (h.setState c .closed).giveRoom _
    · exact h
  · exact h

theorem lease (h : Quieter p q) (a : AttemptId) (k : PoolId) (c : ConnectionId) :
    Quieter p (q.lease a k c) :=
  ((h.modifyPool k _).hangUp a).setPhase a _

theorem take (p : Pool) (a : AttemptId) (k : PoolId) (c : ConnectionId) :
    Quieter p (p.take a k c) := by
  have htaken := (refl p).modifyPool k fun x => { x with idle := x.idle.erase c }
  unfold Pool.take
  split
  · exact refl p
  · split
    · dsimp only
      split
      · exact htaken.lease a k c
      · exact htaken.close c
    · exact refl p

theorem claim (p : Pool) (a : AttemptId) (k : PoolId) : Quieter p (p.claim a k) := by
  unfold Pool.claim
  split
  · exact ((refl p).same (r := (p.begin k).2) rfl).setPhase a _
  · exact (refl p).setPhase a _

theorem release (p : Pool) (a : AttemptId) (k : PoolId) (c : ConnectionId) :
    Quieter p (p.release a k c) := by
  have hnoted := (refl p).modifyPool k fun x => { x with busy := x.busy.erase c }
  unfold Pool.release
  dsimp only
  split
  · exact ((hnoted.close c).callOne k).setPhase a _
  · exact ((hnoted.modifyPool k _).callOne k).setPhase a _

theorem attemptStep (hp : Queues p) (hdown : p.shutDown = true) (ha : p.attempts[a]? = some y)
    (hk : y.pool = some k) (action : Action) :
    Quieter p (p.stepAttempt a k y.phase y.ear y.address action) := by
  have start := refl p
  refine stepAttempt_of (P := Quieter p) start ?listen ?take ?goOn ?claim ?connected ?refuse ?lose
    ?wake ?fail ?quit ?release
  case listen =>
    intro hy
    have hear := hp.off y (List.mem_of_getElem? ha) (by rw [hy]; rfl)
    unfold Pool.listen
    dsimp only
    rw [shutDown_startListening, if_pos hdown, hp.hangUp_startListening ha hk hear]
    exact (start.modifyPool k _).setPhase a _
  case take => exact fun c _ => take p a k c
  case goOn => exact fun _ _ _ _ => start.setPhase a _
  case claim => exact fun _ => claim p a k
  case connected => exact fun c _ => (start.setState c .opened).lease a k c
  case refuse =>
    exact fun c e _ =>
      (((start.setState c .refused).giveRoom k).hangUp a).setPhase a _
  case lose =>
    exact fun b c _ _ => ((start.setState c .lost).hangUp a).setPhase a _
  case wake => exact fun _ _ => (start.setEar a (by decide)).setPhase a _
  case fail => exact fun e _ => (start.hangUp a).setPhase a _
  case quit => exact fun _ => (start.hangUp a).setPhase a _
  case release => exact fun c _ => release p a k c

theorem prune (p : Pool) : Quieter p p.prune := by
  suffices hdropped : Quieter p p.dropClosedIdle from hdropped.same rfl
  have each (f : Pool → PoolId → AddressPool → AddressPool) (ks : List PoolId) (q : Pool)
      (hq : Quieter p q) : Quieter p (ks.foldl (fun q k => q.modifyPool k (f q k)) q) := by
    induction ks generalizing q with
    | nil => exact hq
    | cons k rest ih => exact ih _ (hq.modifyPool k _)
  exact each (fun q _ x => { x with idle := x.idle.filter fun c => !q.socketClosed c }) _ p (refl p)

/-- **After the end nobody begins to listen.** -/
theorem step (hp : Queues p) (hdown : p.shutDown = true) (action : Action) :
    Quieter p (p.step action) := by
  have start := refl p
  cases action with
  | arrive address =>
    show Quieter p (p.arrive address)
    unfold Pool.arrive
    rw [if_pos hdown]
    rintro k b ⟨z, hz, hpool, hear⟩
    by_cases hlt : b < p.attempts.length
    · exact ⟨z, (List.getElem?_append_left hlt).symm.trans hz, hpool, hear⟩
    · rw [List.getElem?_append_right (Nat.le_of_not_lt hlt)] at hz
      obtain rfl := List.mem_singleton.1 (List.mem_of_getElem? hz)
      cases hear
  | listen a | take a _ | noneIdle a | claim a | connected a | refused a _ | wake a | timeOut a
  | release a | abandon a =>
    exact onAttempt_of (P := Quieter p) start fun y k ha hk => attemptStep hp hdown ha hk _
  | queue c =>
    refine onSocket_of (P := Quieter p) start fun s _ => ?_
    split
    · exact start.same rfl
    · exact start
  | write c => exact start.same rfl
  | mark c =>
    refine onSocket_of (P := Quieter p) start fun s _ => ?_
    split
    · exact start.same rfl
    · exact start
  | free c =>
    refine onSocket_of (P := Quieter p) start fun s _ => ?_
    split
    · exact (start.setState c .closed).giveRoom _
    · exact start
  | warm w =>
    refine onWarmUp_of (P := Quieter p) start fun z _ => ?_
    unfold Pool.warm
    split
    · split
      · exact start.same rfl
      · exact start.same rfl
    · exact start
  | warmConnected w =>
    refine onWarmUp_of (P := Quieter p) start fun z _ => ?_
    unfold Pool.warmConnected
    split
    · exact (((start.setState _ .opened).modifyPool z.pool _).callOne z.pool).same rfl
    · exact start
  | warmRefused w =>
    refine onWarmUp_of (P := Quieter p) start fun z _ => ?_
    unfold Pool.warmRefused
    split
    · exact ((start.setState _ .refused).giveRoom z.pool).same rfl
    · exact start
  | shutDown =>
    show Quieter p p.beginShutDown
    rw [beginShutDown, if_pos hdown]
    exact start
  | prune => exact prune p

end Quieter

/-! ### The end -/

namespace Queues

theorem close (h : Queues p) (c : ConnectionId) : Queues (p.close c) := by
  unfold Pool.close
  split
  · next s _ =>
    split
    · exact ((h.same (q := p.setState c .closed) rfl rfl).modifyPool s.pool
        (f := fun x => { x with live := countDown x.live }) fun _ => rfl).callOne _
    · exact h
  · exact h

/-- Whoever listens is called when their address pool is closed. -/
theorem closeAll (h : Queues p) (k : PoolId) :
    Queues (p.closeAll k) ∧ ∀ j a, (p.closeAll k).Listens j a → p.Listens j a ∧ j ≠ k := by
  have each (cs : List ConnectionId) (q : Pool) (hq : Queues q) (hpq : Quieter p q) :
      Queues (cs.foldl Pool.close q) ∧ Quieter p (cs.foldl Pool.close q) := by
    induction cs generalizing q with
    | nil => exact ⟨hq, hpq⟩
    | cons c rest ih => exact ih _ (hq.close c) (hpq.close c)
  unfold Pool.closeAll
  split
  · next hnone =>
    refine ⟨h, fun j a hlistens => ⟨hlistens, ?_⟩⟩
    rintro rfl
    exact h.not_listens_none hnone a hlistens
  · next x _ =>
    obtain ⟨hclosed, hquieter⟩ := each (x.idle ++ x.busy) p h (Quieter.refl p)
    obtain ⟨hcalled, hnobody⟩ := (hclosed.modifyPool k
      (f := fun x => { x with idle := [], busy := [] }) fun _ => rfl).callAll k
    refine ⟨hcalled, fun j a hlistens => ?_⟩
    obtain ⟨hbefore, hne⟩ := hnobody j a hlistens
    exact ⟨hquieter j a hbefore, hne⟩

/-- **When a pool is shut down, nobody is left to listen.** -/
theorem beginShutDown (h : Queues p) (haddressed : Addressed p) (hup : p.shutDown = false) :
    Queues p.beginShutDown ∧ Silent p.beginShutDown := by
  have each (ks : List PoolId) (q : Pool) (hq : Queues q) :
      Queues (ks.foldl Pool.closeAll q) ∧
        ∀ j a, (ks.foldl Pool.closeAll q).Listens j a → q.Listens j a ∧ j ∉ ks := by
    induction ks generalizing q with
    | nil => exact ⟨hq, fun j a hlistens => ⟨hlistens, by simp⟩⟩
    | cons k rest ih =>
      obtain ⟨hclosed, hnobody⟩ := hq.closeAll k
      obtain ⟨hrest, hnone⟩ := ih _ hclosed
      refine ⟨hrest, fun j a hlistens => ?_⟩
      obtain ⟨hbefore, hnot⟩ := hnone j a hlistens
      obtain ⟨hlistens, hne⟩ := hnobody j a hbefore
      exact ⟨hlistens, by simp [hne, hnot]⟩
  obtain ⟨hqueues, hnone⟩ := each p.current.values { p with shutDown := true } (h.same rfl rfl)
  unfold Pool.beginShutDown
  rw [if_neg (by simp [hup])]
  refine ⟨hqueues, fun k a hlistens => ?_⟩
  obtain ⟨⟨y, hy, hk, hear⟩, hnot⟩ := hnone k a hlistens
  -- Whoever listens keeps their address pool in use, so it was among those that were closed.
  obtain ⟨x, hx⟩ := h.house hy hk
  have hholds : y.holds k = true := by
    have hhears := h.hears hy hear
    cases hphase : y.phase <;> simp_all [Attempt.holds, AttemptPhase.hears]
  have hfound := haddressed.inUse k x hx (.inl ⟨y, List.mem_of_getElem? hy, hholds⟩)
  exact hnot (List.mem_map_of_mem (Dict.mem_of_find? hfound))

end Queues

/-- **Nobody listens at a pool that is shut down.** -/
theorem silent_step (h : Queues p) (haddressed : Addressed p)
    (hsilent : p.shutDown = true → Silent p) (action : Action)
    (hdown : (p.step action).shutDown = true) : Silent (p.step action) := by
  cases hbefore : p.shutDown with
  | true => exact (Quieter.step h hbefore action).silent (hsilent hbefore)
  | false =>
    by_cases haction : action = .shutDown
    · rw [haction]
      exact (h.beginShutDown haddressed hbefore).2
    · rw [shutDown_step p haction, hbefore] at hdown
      cases hdown

end Pool
end RemoteCall.Transport
