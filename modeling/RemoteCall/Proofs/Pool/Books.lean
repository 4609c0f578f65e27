import Mathlib.Data.List.Basic
import RemoteCall.Proofs.Pool.Views

/-! The books of a pool.

Every connection that takes room is counted by its address pool, and every connection that
can still be used is in exactly one place: with the attempt or the background opening that
is connecting it, among the idle ones, or with the attempt that has leased it (`Owned`).

A step takes a connection from one place before it puts it into another, and closes a
connection before it gives the room back. `Books hand debt` is the state of the books in
the middle of a step, with a connection in hand and room still to be given back; between
steps the books are `Sound`, with neither. Every change that steps are made of has one
lemma here that says how it moves what is in hand. -/
namespace RemoteCall.Transport

/-! ### In the middle of a step -/

/-- What a step has in hand. -/
inductive Hand where
  | nothing
  /-- A connection that is being made. -/
  | connecting (c : ConnectionId)
  /-- A connection that was made, closed since or not. -/
  | made (c : ConnectionId)

namespace Hand

def openings : Hand → ConnectionId → Nat
  | connecting c, d => if c = d then 1 else 0
  | _, _ => 0

def holdings : Hand → ConnectionId → Nat
  | made c, d => if c = d then 1 else 0
  | _, _ => 0

/-- The connection in hand. -/
def connection? : Hand → Option ConnectionId
  | nothing => none
  | connecting c => some c
  | made c => some c

@[simp] theorem openings_nothing (c : ConnectionId) : nothing.openings c = 0 := rfl

@[simp] theorem holdings_nothing (c : ConnectionId) : nothing.holdings c = 0 := rfl

@[simp] theorem openings_made (c d : ConnectionId) : (made c).openings d = 0 := rfl

@[simp] theorem holdings_connecting (c d : ConnectionId) : (connecting c).holdings d = 0 := rfl

end Hand

/-- What an attempt has. -/
def AttemptPhase.hand : AttemptPhase → Hand
  | connecting c => .connecting c
  | leased c => .made c
  | _ => .nothing

theorem AttemptPhase.toNat_connecting (phase : AttemptPhase) (c : ConnectionId) :
    (decide (phase = .connecting c)).toNat = phase.hand.openings c := by
  cases phase <;> simp [hand, Hand.openings]
  split <;> simp_all

theorem AttemptPhase.toNat_leased (phase : AttemptPhase) (c : ConnectionId) :
    (decide (phase = .leased c)).toNat = phase.hand.holdings c := by
  cases phase <;> simp [hand, Hand.holdings]
  split <;> simp_all

/-- How many may be connecting a connection and how many may have it once made, by its
state. -/
def Owned (state : Option SocketState) (openings holdings : Nat) : Prop :=
  match state with
  | some .connecting => openings = 1 ∧ holdings = 0
  | some .opened => openings = 0 ∧ holdings = 1
  | some .closing | some .closed => openings = 0 ∧ holdings ≤ 1
  | some .refused | some .lost | none => openings = 0 ∧ holdings = 0

/-- Only a connection that is not open may be let go of. -/
theorem Owned.mono {state : Option SocketState} {o n m : Nat} (h : Owned state o n) (hle : m ≤ n)
    (hopened : state = some .opened → m = n) : Owned state o m := by
  unfold Owned at h ⊢
  split at h <;> simp_all <;> omega

theorem Owned.holdings_le {state : Option SocketState} {o n : Nat} (h : Owned state o n) :
    n ≤ 1 := by
  unfold Owned at h
  split at h <;> omega

theorem Owned.openings_eq {state : Option SocketState} {o n : Nat} (h : Owned state o n) :
    o = if state = some .connecting then 1 else 0 := by
  unfold Owned at h
  split at h <;> simp_all

namespace Pool

structure Books (hand : Hand) (debt : Option PoolId) (p : Pool) : Prop where
  /-- Every address pool counts its connections that take room. -/
  balanced : ∀ (k : PoolId) (x : AddressPool), p.pools[k]? = some x →
    x.live = p.roomTaken k + if debt = some k then 1 else 0
  bounded : ∀ (k : PoolId) (x : AddressPool), p.pools[k]? = some x → x.live ≤ p.limit
  owned : ∀ c, Owned (p.state? c) (p.openings c + hand.openings c)
    (p.idleTimes c + p.leases c + hand.holdings c)
  idleHome : ∀ (k : PoolId) (x : AddressPool), p.pools[k]? = some x →
    ∀ c ∈ x.idle, p.home? c = some k
  attemptHome : ∀ x ∈ p.attempts, ∀ c, x.phase.hand.connection? = some c →
    ∃ k, p.home? c = some k ∧ x.pool = some k
  warmHome : ∀ x ∈ p.warmUps, ∀ c, x.connecting = some c → p.home? c = some x.pool
  housed : ∀ s ∈ p.sockets, s.pool < p.pools.length

/-- The books between steps. -/
abbrev Sound (p : Pool) : Prop := Books .nothing none p

variable {p q : Pool} {hand hand' : Hand} {debt debt' : Option PoolId} {k : PoolId}
  {c : ConnectionId}

theorem Books.house (h : Books hand debt p) (hc : p.home? c = some k) :
    ∃ x, p.pools[k]? = some x := by
  obtain ⟨s, hs, rfl⟩ := Option.map_eq_some_iff.1 hc
  exact ⟨_, List.getElem?_eq_getElem (h.housed s (List.mem_of_getElem? hs))⟩

/-! ### Calls -/

theorem pools_hushed (p : Pool) (k : PoolId) :
    p.hushed.pools[k]? = (p.pools[k]?).map AddressPool.hushed := List.getElem?_map

theorem openings_hushed (p : Pool) (c : ConnectionId) : p.hushed.openings c = p.openings c := by
  simp only [openings, hushed, List.countP_map]
  rfl

theorem leases_hushed (p : Pool) (c : ConnectionId) : p.hushed.leases c = p.leases c := by
  simp only [leases, hushed, List.countP_map]
  rfl

theorem idleTimes_hushed (p : Pool) (c : ConnectionId) : p.hushed.idleTimes c = p.idleTimes c := by
  simp only [idleTimes, hushed, List.flatMap_map]
  rfl

/-- The books take no notice of calls. -/
theorem books_hushed : Books hand debt p.hushed ↔ Books hand debt p := by
  constructor <;> intro h
  · refine ⟨fun k x hk => ?_, fun k x hk => ?_, fun c => ?_, fun k x hk => ?_, fun x hx => ?_,
      h.warmHome, ?_⟩
    · exact h.balanced k x.hushed (by rw [pools_hushed, hk]; rfl)
    · exact h.bounded k x.hushed (by rw [pools_hushed, hk]; rfl)
    · rw [← openings_hushed, ← leases_hushed, ← idleTimes_hushed]
      exact h.owned c
    · exact h.idleHome k x.hushed (by rw [pools_hushed, hk]; rfl)
    · exact h.attemptHome x.hushed (List.mem_map_of_mem hx)
    · simpa [hushed] using h.housed
  · refine ⟨fun k y hk => ?_, fun k y hk => ?_, fun c => ?_, fun k y hk => ?_, fun y hy => ?_,
      h.warmHome, ?_⟩
    · obtain ⟨x, hx, rfl⟩ := Option.map_eq_some_iff.1 ((pools_hushed p k).symm.trans hk)
      exact h.balanced k x hx
    · obtain ⟨x, hx, rfl⟩ := Option.map_eq_some_iff.1 ((pools_hushed p k).symm.trans hk)
      exact h.bounded k x hx
    · rw [openings_hushed, leases_hushed, idleTimes_hushed]
      exact h.owned c
    · obtain ⟨x, hx, rfl⟩ := Option.map_eq_some_iff.1 ((pools_hushed p k).symm.trans hk)
      exact h.idleHome k x hx
    · obtain ⟨x, hx, rfl⟩ := List.mem_map.1 hy
      exact h.attemptHome x hx
    · simpa [hushed] using h.housed

theorem Books.quiet (h : Books hand debt p) (heq : q.hushed = p.hushed) : Books hand debt q :=
  books_hushed.1 (heq ▸ books_hushed.2 h)

/-! ### One change -/

theorem idleTimes_modifyPool {x : AddressPool} (hk : p.pools[k]? = some x)
    (f : AddressPool → AddressPool) (c : ConnectionId) :
    (p.modifyPool k f).idleTimes c + x.idle.count c = p.idleTimes c + (f x).idle.count c :=
  count_flatMap_modify hk f AddressPool.idle c

theorem leases_setPhase {a : AttemptId} {x : Attempt} (ha : p.attempts[a]? = some x)
    (phase : AttemptPhase) (c : ConnectionId) :
    (p.setPhase a phase).leases c + x.phase.hand.holdings c =
      p.leases c + phase.hand.holdings c := by
  rw [← AttemptPhase.toNat_leased, ← AttemptPhase.toNat_leased]
  exact countP_modify ha (fun y => { y with phase := phase }) fun y => y.phase = .leased c

theorem openings_setPhase {a : AttemptId} {x : Attempt} (ha : p.attempts[a]? = some x)
    (phase : AttemptPhase) (c : ConnectionId) :
    (p.setPhase a phase).openings c + x.phase.hand.openings c =
      p.openings c + phase.hand.openings c := by
  rw [← AttemptPhase.toNat_connecting, ← AttemptPhase.toNat_connecting]
  have := countP_modify ha (fun y => { y with phase := phase }) fun y => y.phase = .connecting c
  simp only [openings, setPhase, modifyAttempt] at this ⊢
  omega

/-- An entry of a changed list of address pools. -/
theorem entry_modifyPool {f : AddressPool → AddressPool} {j : PoolId} {y : AddressPool}
    (hj : (p.modifyPool k f).pools[j]? = some y) :
    ∃ x, p.pools[j]? = some x ∧ (k = j ∧ y = f x ∨ k ≠ j ∧ y = x) := by
  rw [modifyPool, List.getElem?_modify] at hj
  obtain ⟨x, hx, rfl⟩ := Option.map_eq_some_iff.1 hj
  refine ⟨x, hx, ?_⟩
  by_cases hkj : k = j
  · exact .inl ⟨hkj, if_pos hkj⟩
  · exact .inr ⟨hkj, if_neg hkj⟩

/-- A change of an address pool that leaves its counter alone. What it lets go of is not
open any more, and what it adds to the idle ones was in hand. -/
theorem Books.changePool (h : Books hand debt p) {x : AddressPool} (hk : p.pools[k]? = some x)
    (f : AddressPool → AddressPool) (live : (f x).live = x.live)
    (home : ∀ c ∈ (f x).idle, c ∈ x.idle ∨ p.home? c = some k)
    (openings : ∀ c, hand'.openings c = hand.openings c)
    (le : ∀ c, (f x).idle.count c + hand'.holdings c ≤ x.idle.count c + hand.holdings c)
    (opened : ∀ c, p.state? c = some .opened →
      (f x).idle.count c + hand'.holdings c = x.idle.count c + hand.holdings c) :
    Books hand' debt (p.modifyPool k f) := by
  refine ⟨fun j y hj => ?_, fun j y hj => ?_, fun c => ?_, fun j y hj c hc => ?_, h.attemptHome,
    h.warmHome, ?_⟩
  · obtain ⟨x', hx, ⟨rfl, rfl⟩ | ⟨_, rfl⟩⟩ := entry_modifyPool hj
    · obtain rfl : x = x' := Option.some.inj (hk.symm.trans hx)
      rw [live]
      exact h.balanced k x hk
    · exact h.balanced j y hx
  · obtain ⟨x', hx, ⟨rfl, rfl⟩ | ⟨_, rfl⟩⟩ := entry_modifyPool hj
    · obtain rfl : x = x' := Option.some.inj (hk.symm.trans hx)
      rw [live]
      exact h.bounded k x hk
    · exact h.bounded j y hx
  · have hidle := idleTimes_modifyPool hk f c
    have hleases : (p.modifyPool k f).leases c = p.leases c := rfl
    have hleft := h.owned c
    have hle := le c
    rw [← openings c] at hleft
    refine hleft.mono (by omega) fun hs => ?_
    have := opened c hs
    omega
  · obtain ⟨x', hx, ⟨rfl, rfl⟩ | ⟨_, rfl⟩⟩ := entry_modifyPool hj
    · obtain rfl : x = x' := Option.some.inj (hk.symm.trans hx)
      exact (home c hc).elim (h.idleHome k x hk c) id
    · exact h.idleHome j y hx c hc
  · simpa [modifyPool] using h.housed

/-- A change of the phase of an attempt, which passes between the attempt and the hand what
either has. -/
theorem Books.changePhase (h : Books hand debt p) {a : AttemptId} {x : Attempt}
    (ha : p.attempts[a]? = some x) (phase : AttemptPhase)
    (home : ∀ c, phase.hand.connection? = some c → ∃ k, p.home? c = some k ∧ x.pool = some k)
    (openings : ∀ c, phase.hand.openings c + hand'.openings c =
      x.phase.hand.openings c + hand.openings c)
    (le : ∀ c, phase.hand.holdings c + hand'.holdings c ≤
      x.phase.hand.holdings c + hand.holdings c)
    (opened : ∀ c, p.state? c = some .opened → phase.hand.holdings c + hand'.holdings c =
      x.phase.hand.holdings c + hand.holdings c) :
    Books hand' debt (p.setPhase a phase) := by
  refine ⟨h.balanced, h.bounded, fun c => ?_, h.idleHome, fun y hy c hc => ?_, h.warmHome,
    h.housed⟩
  · have hopen := openings_setPhase ha phase c
    have hlease := leases_setPhase ha phase c
    have hidle : (p.setPhase a phase).idleTimes c = p.idleTimes c := rfl
    have hopenings := openings c
    have hle := le c
    have hsame : (p.setPhase a phase).openings c + hand'.openings c =
        p.openings c + hand.openings c := by omega
    rw [hsame]
    refine (h.owned c).mono (by omega) fun hs => ?_
    have := opened c hs
    omega
  · obtain hy | rfl := mem_modify ha hy
    · exact h.attemptHome y hy c hc
    · exact home c hc

/-! ### States of connections -/

section State
variable {s : Socket}

theorem roomTaken_setState (hs : p.sockets[c]? = some s) (state : SocketState) (k : PoolId) :
    (p.setState c state).roomTaken k + (s.pool = k && s.takesRoom).toNat =
      p.roomTaken k + (s.pool = k && Socket.takesRoom { s with state := state }).toNat :=
  countP_modify hs (fun s => { s with state := state }) fun s => s.pool = k && s.takesRoom

theorem home?_setState (p : Pool) (c d : ConnectionId) (state : SocketState) :
    (p.setState c state).home? d = p.home? d := by
  simp only [home?, setState, modifySocket, List.getElem?_modify]
  cases p.sockets[d]? with
  | none => rfl
  | some s => by_cases h : c = d <;> simp [h]

theorem state?_setState_self (hs : p.sockets[c]? = some s) (state : SocketState) :
    (p.setState c state).state? c = some state := by
  simp [state?, setState, modifySocket, hs]

theorem state?_setState_of_ne {d : ConnectionId} (h : c ≠ d) (state : SocketState) :
    (p.setState c state).state? d = p.state? d := by
  simp [state?, setState, modifySocket, List.getElem?_modify_ne _ _ h]

/-- A change of the state of a connection, which may take it from the hand or leave it there
as made, and may leave room to be given back. -/
theorem Books.changeState (h : Books hand debt p) (hs : p.sockets[c]? = some s)
    (state : SocketState)
    (room : ∀ k, (if debt' = some k then 1 else 0)
        + (s.pool = k && Socket.takesRoom { s with state := state }).toNat =
      (if debt = some k then 1 else 0) + (s.pool = k && s.takesRoom).toNat)
    (others : ∀ d, c ≠ d → hand'.openings d = hand.openings d ∧ hand'.holdings d = hand.holdings d)
    (this : ∀ o n, Owned (some s.state) (o + hand.openings c) (n + hand.holdings c) →
      Owned (some state) (o + hand'.openings c) (n + hand'.holdings c)) :
    Books hand' debt' (p.setState c state) := by
  refine ⟨fun k x hk => ?_, h.bounded, fun d => ?_, fun k x hk d hd => ?_, fun x hx d hd => ?_,
    fun x hx d hd => ?_, fun t ht => ?_⟩
  · have hroom := roomTaken_setState hs state k
    have hlive := h.balanced k x hk
    have := room k
    omega
  · by_cases hcd : c = d
    · subst hcd
      rw [state?_setState_self hs]
      have hstate : p.state? c = some s.state := by simp [state?, hs]
      exact this _ _ (hstate ▸ h.owned c)
    · rw [state?_setState_of_ne hcd, (others d hcd).1, (others d hcd).2]
      exact h.owned d
  · rw [home?_setState]
    exact h.idleHome k x hk d hd
  · rw [home?_setState]
    exact h.attemptHome x hx d hd
  · rw [home?_setState]
    exact h.warmHome x hx d hd
  · obtain ht | rfl := mem_modify hs ht
    · exact h.housed t ht
    · exact h.housed s (List.mem_of_getElem? hs)

/-- A connection in hand is made. -/
theorem Books.settle (h : Books (.connecting c) debt p) (hs : p.sockets[c]? = some s) :
    Books (.made c) debt (p.setState c .opened) ∧ s.state = .connecting := by
  have hstate : p.state? c = some s.state := by simp [state?, hs]
  have howned := h.owned c
  have hconnecting : s.state = .connecting := by
    rw [hstate] at howned
    cases hst : s.state <;> simp [Owned, hst, Hand.openings] at howned ⊢
  refine ⟨h.changeState hs .opened (fun k => ?_) (fun d hd => ?_) (fun o n => ?_), hconnecting⟩
  · simp [Socket.takesRoom, hconnecting]
  · simp [Hand.openings, Hand.holdings, hd]
  · simp [Owned, hconnecting, Hand.openings, Hand.holdings]

/-- A connection in hand is not made; its room is to be given back. -/
theorem Books.refuse (h : Books (.connecting c) none p) (hs : p.sockets[c]? = some s) :
    Books .nothing (some s.pool) (p.setState c .refused) := by
  have hconnecting := (h.settle hs).2
  refine h.changeState hs .refused (fun k => ?_) (fun d hd => ?_) (fun o n => ?_)
  · simp [Socket.takesRoom, hconnecting]
    split <;> simp_all
  · simp [Hand.openings, hd]
  · simp [Owned, hconnecting, Hand.openings]

/-- Whoever had a connection in hand goes away; its room stays taken. -/
theorem Books.lose (h : Books (.connecting c) debt p) (hs : p.sockets[c]? = some s) :
    Books .nothing debt (p.setState c .lost) := by
  have hconnecting := (h.settle hs).2
  refine h.changeState hs .lost (fun k => ?_) (fun d hd => ?_) (fun o n => ?_)
  · simp [Socket.takesRoom, hconnecting]
  · simp [Hand.openings, hd]
  · simp [Owned, hconnecting, Hand.openings]

theorem Books.mark (h : Books hand debt p) (hs : p.sockets[c]? = some s)
    (hopened : s.state = .opened) : Books hand debt (p.setState c .closing) := by
  refine h.changeState hs .closing (fun k => ?_) (fun d _ => ⟨rfl, rfl⟩) (fun o n => ?_)
  · simp [Socket.takesRoom, hopened]
  · simp only [Owned, hopened]
    omega

/-- A connection closes; its room is to be given back. -/
theorem Books.closed (h : Books hand none p) (hs : p.sockets[c]? = some s)
    (hopen : s.state = .opened ∨ s.state = .closing) :
    Books hand (some s.pool) (p.setState c .closed) := by
  refine h.changeState hs .closed (fun k => ?_) (fun d _ => ⟨rfl, rfl⟩) (fun o n => ?_)
  · obtain hst | hst := hopen <;> simp [Socket.takesRoom, hst] <;> split <;> simp_all
  · obtain hst | hst := hopen <;> simp only [Owned, hst] <;> omega

end State

/-! ### Room -/

/-- Room that is to be given back is taken, so the counter does not go below zero. -/
theorem Books.giveRoom (h : Books hand (some k) p) : Books hand none (p.giveRoom k) := by
  refine (?_ : Books hand none (p.modifyPool k fun x => { x with live := countDown x.live })).quiet
    (hushed_callOne _ k)
  refine ⟨fun j y hj => ?_, fun j y hj => ?_, fun c => ?_, fun j y hj c hc => ?_, h.attemptHome,
    h.warmHome, ?_⟩
  · obtain ⟨x, hx, ⟨rfl, rfl⟩ | ⟨hkj, rfl⟩⟩ := entry_modifyPool hj
    · have hlive := h.balanced k x hx
      simp only [if_true] at hlive
      rw [countDown_of_pos (by omega), roomTaken_modifyPool]
      simp [hlive]
    · simpa [hkj] using h.balanced j y hx
  · obtain ⟨x, hx, ⟨rfl, rfl⟩ | ⟨_, rfl⟩⟩ := entry_modifyPool hj
    · have hlive := h.balanced k x hx
      have hbound := h.bounded k x hx
      simp only [if_true] at hlive
      rw [countDown_of_pos (by omega), limit_modifyPool]
      show x.live - 1 ≤ p.limit
      omega
    · exact h.bounded j y hx
  · have hidle : (p.modifyPool k fun x => { x with live := countDown x.live }).idleTimes c =
        p.idleTimes c := by
      cases hk : p.pools[k]? with
      | none => rw [modifyPool_of_none hk]
      | some x => simpa using idleTimes_modifyPool hk (fun x => { x with live := countDown x.live }) c
    rw [hidle]
    exact h.owned c
  · obtain ⟨x, hx, ⟨rfl, rfl⟩ | ⟨_, rfl⟩⟩ := entry_modifyPool hj
    · exact h.idleHome k x hx c hc
    · exact h.idleHome j y hx c hc
  · simpa [modifyPool] using h.housed

/-- Room is taken for a connection that is begun, and the connection is in hand. -/
theorem Books.begin (h : Sound p) (hroom : p.hasRoom k = true) :
    Books (.connecting (p.begin k).1) none (p.begin k).2 ∧
      (p.begin k).2.home? (p.begin k).1 = some k := by
  obtain ⟨x, hk, hlt⟩ : ∃ x, p.pools[k]? = some x ∧ x.live < p.limit := by
    unfold hasRoom at hroom
    split at hroom
    · next x hk => exact ⟨x, hk, by simpa using hroom⟩
    · cases hroom
  have hhome (c : ConnectionId) (j : PoolId) (hc : p.home? c = some j) :
      (p.begin k).2.home? c = some j := by
    have hlen := (List.getElem?_eq_some_iff.1 (Option.map_eq_some_iff.1 hc).choose_spec.1).1
    simpa [home?, Pool.begin, List.getElem?_append_left hlen] using hc
  have htaken (j : PoolId) :
      (p.begin k).2.roomTaken j = p.roomTaken j + if k = j then 1 else 0 := by
    simp only [roomTaken, Pool.begin, List.countP_append, List.countP_singleton]
    simp [Socket.takesRoom]
  have hidle (c : ConnectionId) : (p.begin k).2.idleTimes c = p.idleTimes c := by
    have := idleTimes_modifyPool hk (fun x => { x with live := x.live + 1 }) c
    exact Nat.add_right_cancel this
  refine ⟨⟨fun j y hj => ?_, fun j y hj => ?_, fun c => ?_, fun j y hj c hc => ?_,
    fun y hy c hc => ?_, fun y hy c hc => hhome c _ (h.warmHome y hy c hc), fun s hs => ?_⟩, ?_⟩
  · rw [htaken]
    obtain ⟨x', hx, ⟨rfl, rfl⟩ | ⟨hkj, rfl⟩⟩ := entry_modifyPool hj
    · simpa using h.balanced k x' hx
    · simpa [hkj] using h.balanced j y hx
  · obtain ⟨x', hx, ⟨rfl, rfl⟩ | ⟨_, rfl⟩⟩ := entry_modifyPool hj
    · obtain rfl : x = x' := Option.some.inj (hk.symm.trans hx)
      exact hlt
    · exact h.bounded j y hx
  · have howned := h.owned c
    rw [hidle]
    by_cases hc : c = p.sockets.length
    · subst hc
      have hnone : p.state? p.sockets.length = none := by simp [state?]
      have hsome : (p.begin k).2.state? p.sockets.length = some .connecting := by
        simp [state?, Pool.begin]
      rw [hnone] at howned
      rw [hsome]
      simp only [Owned, Hand.openings_nothing, Hand.holdings_nothing, Nat.add_zero] at howned
      refine ⟨?_, howned.2⟩
      show p.openings _ + Hand.openings (.connecting p.sockets.length) _ = 1
      simp [Hand.openings, howned.1]
    · have hstate : (p.begin k).2.state? c = p.state? c := by
        simp only [state?, Pool.begin]
        rcases Nat.lt_or_gt_of_ne hc with hlt | hgt
        · rw [List.getElem?_append_left hlt]
        · rw [List.getElem?_eq_none (by simp; omega), List.getElem?_eq_none (by omega)]
      have hhand : Hand.openings (.connecting (p.begin k).1) c = 0 := if_neg fun he => hc he.symm
      rw [hstate, hhand]
      exact howned
  · obtain ⟨x', hx, ⟨rfl, rfl⟩ | ⟨_, rfl⟩⟩ := entry_modifyPool hj
    · exact hhome c k (h.idleHome k x' hx c hc)
    · exact hhome c j (h.idleHome j y hx c hc)
  · obtain ⟨j, hc', hj⟩ := h.attemptHome y hy c hc
    exact ⟨j, hhome c j hc', hj⟩
  · have hlen : (p.begin k).2.pools.length = p.pools.length := by simp [Pool.begin, modifyPool]
    rw [hlen]
    obtain hs | hs := List.mem_append.1 hs
    · exact h.housed s hs
    · rw [List.mem_singleton.1 hs]
      exact (List.getElem?_eq_some_iff.1 hk).1
  · simp [home?, Pool.begin]

/-! ### Background openings and new entries -/

/-- A change of a background opening, which passes between it and the hand what either is
connecting. -/
theorem Books.changeWarmUp (h : Books hand debt p) {w : WarmUpId} {x : WarmUp}
    (hw : p.warmUps[w]? = some x) (y : WarmUp)
    (home : ∀ c, y.connecting = some c → p.home? c = some y.pool)
    (openings : ∀ c, (decide (y.connecting = some c)).toNat + hand'.openings c =
      (decide (x.connecting = some c)).toNat + hand.openings c)
    (holdings : ∀ c, hand'.holdings c = hand.holdings c) :
    Books hand' debt (p.setWarmUp w y) := by
  have hset : (p.setWarmUp w y).warmUps = p.warmUps.modify w fun _ => y := by
    simp only [setWarmUp, List.set_eq_modify]
  refine ⟨h.balanced, h.bounded, fun c => ?_, h.idleHome, h.attemptHome, fun z hz c hc => ?_,
    h.housed⟩
  · have hopen := countP_modify hw (fun _ => y) fun z => z.connecting = some c
    have hopenings := openings c
    have hsame : (p.setWarmUp w y).openings c + hand'.openings c =
        p.openings c + hand.openings c := by
      simp only [Pool.openings, hset]
      show List.countP _ p.attempts + _ + _ = _
      omega
    rw [hsame, holdings]
    exact h.owned c
  · rw [hset] at hz
    obtain hz | rfl := mem_modify hw hz
    · exact h.warmHome z hz c hc
    · exact home c hc

/-- Somebody new comes with nothing. -/
theorem Books.arrive (h : Books hand debt p) (x : Attempt) (hx : x.phase.hand = .nothing) :
    Books hand debt { p with attempts := p.attempts ++ [x] } := by
  refine ⟨h.balanced, h.bounded, fun c => ?_, h.idleHome, fun y hy c hc => ?_, h.warmHome,
    h.housed⟩
  · have hopen : (decide (x.phase = .connecting c)).toNat = 0 := by
      rw [AttemptPhase.toNat_connecting, hx]
      rfl
    have hlease : (decide (x.phase = .leased c)).toNat = 0 := by
      rw [AttemptPhase.toNat_leased, hx]
      rfl
    have hopenings : Pool.openings { p with attempts := p.attempts ++ [x] } c = p.openings c := by
      simp only [Pool.openings, List.countP_append, List.countP_singleton]
      simpa using hopen
    have hleases : Pool.leases { p with attempts := p.attempts ++ [x] } c = p.leases c := by
      simp only [leases, List.countP_append, List.countP_singleton]
      simpa using hlease
    rw [hopenings, hleases]
    exact h.owned c
  · obtain hy | hy := List.mem_append.1 hy
    · exact h.attemptHome y hy c hc
    · rw [List.mem_singleton.1 hy, hx] at hc
      cases hc

/-- A new address pool has no connections. -/
theorem Books.create (h : Books hand none p) (address : String) :
    Books hand none (p.create address).2 := by
  have entry {j : PoolId} {y : AddressPool}
      (hj : (p.create address).2.pools[j]? = some y) :
      p.pools[j]? = some y ∨ j = p.pools.length ∧ y = { address := address } := by
    simp only [Pool.create] at hj
    rcases Nat.lt_trichotomy j p.pools.length with hlt | heq | hgt
    · rw [List.getElem?_append_left hlt] at hj
      exact .inl hj
    · subst heq
      exact .inr ⟨rfl, by simpa using hj.symm⟩
    · rw [List.getElem?_eq_none (by simp; omega)] at hj
      cases hj
  have hfresh : p.roomTaken p.pools.length = 0 := by
    simp only [roomTaken, List.countP_eq_zero]
    intro s hs
    have hne : s.pool ≠ p.pools.length := Nat.ne_of_lt (h.housed s hs)
    simp [hne]
  refine ⟨fun j y hj => ?_, fun j y hj => ?_, fun c => ?_, fun j y hj c hc => ?_, h.attemptHome,
    fun x hx c hc => ?_, fun s hs => ?_⟩
  · obtain hj | ⟨rfl, rfl⟩ := entry hj
    · exact h.balanced j y hj
    · show 0 = p.roomTaken p.pools.length + 0
      omega
  · obtain hj | ⟨rfl, rfl⟩ := entry hj
    · exact h.bounded j y hj
    · exact Nat.zero_le _
  · have hidle : (p.create address).2.idleTimes c = p.idleTimes c := by
      simp [idleTimes, Pool.create]
    have hopenings : (p.create address).2.openings c = p.openings c := by
      simp [Pool.openings, Pool.create]
    rw [hidle, hopenings]
    exact h.owned c
  · obtain hj | ⟨rfl, rfl⟩ := entry hj
    · exact h.idleHome j y hj c hc
    · cases hc
  · obtain hx | hx := List.mem_append.1 hx
    · exact h.warmHome x hx c hc
    · rw [List.mem_singleton.1 hx] at hc
      cases hc
  · simp only [Pool.create, List.length_append, List.length_singleton]
    exact Nat.lt_succ_of_lt (h.housed s hs)

end Pool
end RemoteCall.Transport
