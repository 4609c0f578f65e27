import Mathlib.Algebra.GroupWithZero.Nat
import Mathlib.Data.List.Perm.Subperm
import RemoteCall.Proofs.Pool.Addresses

/-! What a pool of connections promises of its counters.

`accounted` is the promise as callers know it: the counter of every address is the number of
its connections, it stays under the ceiling even when an address was forgotten and created
anew, and every open connection is idle or leased, once. It needs that nobody goes away in
the middle of connecting (`noneLeaves`), since the room of a connection that is left behind
never comes back. -/
namespace RemoteCall.Transport.Pool

variable {p : Pool} {k : PoolId} {x : AddressPool} {c : ConnectionId}

/-! ### The promise -/

/-- How many connections of an address pool are not closed yet. -/
def unclosed (p : Pool) (k : PoolId) : Nat :=
  p.sockets.countP fun s => s.pool = k && (s.state = .opened || s.state = .closing)

/-- How many connections of an address pool are being connected. -/
def connects (p : Pool) (k : PoolId) : Nat :=
  p.sockets.countP fun s => s.pool = k && s.state = .connecting

/-- How many connections of an address pool are in a state. -/
def inState (p : Pool) (k : PoolId) (state : SocketState) : Nat :=
  p.sockets.countP fun s => s.pool = k && s.state = state

/-- The counters of all address pools that an address ever had. -/
def liveAt (p : Pool) (address : String) : Nat :=
  ((p.pools.filter fun x => x.address = address).map AddressPool.live).sum

/-- The idle connections of an address pool that are open. -/
def openIdle (p : Pool) (x : AddressPool) : List ConnectionId :=
  x.idle.filter fun c => p.state? c = some .opened

structure Accounted (limit : Nat) (p : Pool) : Prop where
  counted : ∀ (k : PoolId) (x : AddressPool), p.pools[k]? = some x →
    x.live = p.unclosed k + p.connects k
  /-- A connect that is in progress is that of one attempt or background opening. -/
  connecting : ∀ c, p.openings c = if p.state? c = some .connecting then 1 else 0
  /-- Whoever gives room back finds some that is taken. -/
  positive : ∀ s ∈ p.sockets, s.takesRoom = true →
    ∃ x, p.pools[s.pool]? = some x ∧ 0 < x.live
  ceiling : ∀ x ∈ p.pools, x.live ≤ limit
  ceilingAt : ∀ address, p.liveAt address ≤ limit
  /-- An open connection is idle, in its address pool, or leased by one attempt. -/
  single : ∀ c, p.state? c = some .opened →
    p.idleTimes c = 1 ∧ p.leases c = 0 ∨ p.idleTimes c = 0 ∧ p.leases c = 1
  /-- The counts that are shown of an address are those of the address pool in use. -/
  stats : ∀ (address : String) (k : PoolId), p.current.find? address = some k →
    ∃ (x : AddressPool) (busy : Nat), p.pools[k]? = some x ∧ x.address = address ∧
      (p.openIdle x).Nodup ∧ x.live = (p.openIdle x).length + busy ∧
      p.stats address = some ⟨x.live, (p.openIdle x).length, busy⟩
  noStats : ∀ address, p.current.find? address = none → p.stats address = none

/-! ### Counting -/

theorem roomTaken_eq_inState (p : Pool) (k : PoolId) :
    p.roomTaken k = p.inState k .connecting + p.inState k .opened + p.inState k .closing
      + p.inState k .lost := by
  unfold roomTaken inState
  induction p.sockets with
  | nil => rfl
  | cons s rest ih =>
    simp only [List.countP_cons, ih]
    by_cases hk : s.pool = k
    · cases hstate : s.state <;> simp [hk, hstate, Socket.takesRoom] <;> omega
    · simp [hk]

theorem unclosed_eq_inState (p : Pool) (k : PoolId) :
    p.unclosed k = p.inState k .opened + p.inState k .closing := by
  unfold unclosed inState
  induction p.sockets with
  | nil => rfl
  | cons s rest ih =>
    simp only [List.countP_cons, ih]
    by_cases hk : s.pool = k
    · cases hstate : s.state <;> simp [hk] <;> omega
    · simp [hk]

/-- Room is taken by what is not closed yet, by what is being connected, and by what was left
behind. -/
theorem roomTaken_eq_add_lost (p : Pool) (k : PoolId) :
    p.roomTaken k = p.unclosed k + p.connects k + p.inState k .lost := by
  have hconnects : p.connects k = p.inState k .connecting := rfl
  have hroom := p.roomTaken_eq_inState k
  have hunclosed := p.unclosed_eq_inState k
  omega

theorem roomTaken_eq (h : NoneLost p) (k : PoolId) :
    p.roomTaken k = p.unclosed k + p.connects k := by
  have hnone : p.inState k .lost = 0 := List.countP_eq_zero.2 fun s hs => by simp [h s hs]
  rw [roomTaken_eq_add_lost, hnone, Nat.add_zero]

/-- A sum in which at most one term counts. -/
theorem sum_le_of_pairwise {α : Type} {l : List α} {f : α → Nat} {n : Nat}
    (each : ∀ x ∈ l, f x ≤ n) (one : l.Pairwise fun x y => f x = 0 ∨ f y = 0) :
    (l.map f).sum ≤ n := by
  induction l with
  | nil => exact Nat.zero_le _
  | cons x rest ih =>
    obtain ⟨hx, hrest⟩ := List.pairwise_cons.1 one
    rw [List.map_cons, List.sum_cons]
    by_cases hzero : f x = 0
    · have := ih (fun y hy => each y (List.mem_cons_of_mem _ hy)) hrest
      omega
    · have hnone : (rest.map f).sum = 0 := by
        refine List.sum_eq_zero_iff_forall_eq_nat.2 fun m hm => ?_
        obtain ⟨y, hy, rfl⟩ := List.mem_map.1 hm
        exact (hx y hy).resolve_left hzero
      have := each x List.mem_cons_self
      omega

/-- Of all address pools that an address had, one at most has room taken. -/
theorem Addressed.one (h : Addressed p) : p.pools.Pairwise fun x y =>
    x.address = y.address → x.live = 0 ∨ y.live = 0 := by
  refine List.pairwise_iff_getElem.2 fun i j hi hj hij hsame => ?_
  have inUse (k : PoolId) (hk : k < p.pools.length) (hlive : p.pools[k].live ≠ 0) :=
    h.inUse k _ (List.getElem?_eq_getElem hk)
      (.inr (.inr ⟨_, List.getElem?_eq_getElem hk, Nat.pos_of_ne_zero hlive⟩))
  by_contra hboth
  obtain ⟨hx, hy⟩ := not_or.1 hboth
  have hfirst := inUse i hi hx
  rw [hsame, inUse j hj hy] at hfirst
  exact absurd (Option.some.inj hfirst) (Nat.ne_of_gt hij)

theorem liveAt_le (h : Addressed p) (hp : Sound p) (address : String) :
    p.liveAt address ≤ p.limit := by
  refine sum_le_of_pairwise (fun x hx => ?_) ?_
  · obtain ⟨k, hk⟩ := List.getElem?_of_mem (List.mem_of_mem_filter hx)
    exact hp.bounded k x hk
  · refine List.pairwise_filter.2 (h.one.imp fun hxy hx hy => hxy ?_)
    exact (of_decide_eq_true hx).trans (of_decide_eq_true hy).symm

/-- Where in a list a predicate holds. -/
def placesOf {α : Type} (q : α → Bool) (l : List α) : List Nat :=
  (l.zipIdx.filter fun e => q e.1).map Prod.snd

section Places
variable {α : Type} {l : List α} {q : α → Bool} {indices : List Nat}

theorem length_placesOf (q : α → Bool) (l : List α) : (placesOf q l).length = l.countP q := by
  rw [placesOf, List.length_map, ← List.countP_eq_length_filter]
  conv_rhs => rw [← List.zipIdx_map_fst 0 l, List.countP_map]
  rfl

theorem nodup_placesOf (q : α → Bool) (l : List α) : (placesOf q l).Nodup := by
  refine (List.filter_sublist.map Prod.snd).nodup ?_
  rw [List.zipIdx_map_snd]
  exact List.nodup_range'

theorem mem_placesOf {i : Nat} : i ∈ placesOf q l ↔ ∃ x, l[i]? = some x ∧ q x = true := by
  constructor
  · intro hi
    obtain ⟨⟨x, j⟩, hmem, rfl⟩ := List.mem_map.1 hi
    obtain ⟨hx, hq⟩ := List.mem_filter.1 hmem
    exact ⟨x, List.mk_mem_zipIdx_iff_getElem?.1 hx, hq⟩
  · rintro ⟨x, hx, hq⟩
    exact List.mem_map.2 ⟨(x, i), List.mem_filter.2
      ⟨List.mk_mem_zipIdx_iff_getElem?.2 hx, hq⟩, rfl⟩

/-- Different entries that satisfy a predicate are counted. -/
theorem length_le_countP (hnodup : indices.Nodup)
    (h : ∀ i ∈ indices, ∃ x, l[i]? = some x ∧ q x = true) : indices.length ≤ l.countP q := by
  rw [← length_placesOf]
  exact (hnodup.subperm fun i hi => mem_placesOf.2 (h i hi)).length_le

/-- If they are all of them, nothing else is counted. -/
theorem length_eq_countP (hnodup : indices.Nodup)
    (h : ∀ i, i ∈ indices ↔ ∃ x, l[i]? = some x ∧ q x = true) : indices.length = l.countP q := by
  rw [← length_placesOf]
  refine ((List.perm_ext_iff_of_nodup hnodup (nodup_placesOf q l)).2 fun i => ?_).length_eq
  rw [h, mem_placesOf]

end Places

/-! ### Idle connections -/

theorem count_idle_le (hk : p.pools[k]? = some x) (c : ConnectionId) :
    x.idle.count c ≤ p.idleTimes c := by
  rw [idleTimes, List.flatMap_def]
  refine List.Sublist.count_le _ (List.sublist_flatten_of_mem ?_)
  exact List.mem_map_of_mem (List.mem_of_getElem? hk)

theorem Books.nodup_idle (hp : Sound p) (hk : p.pools[k]? = some x) : x.idle.Nodup := by
  refine List.nodup_iff_count.2 fun c => ?_
  have hcount := count_idle_le hk c
  have := (hp.owned c).holdings_le
  omega

/-- An idle connection was made: if it is not closed, it is open. -/
theorem Books.idle_open (hp : Sound p) (hk : p.pools[k]? = some x) (hc : c ∈ x.idle) :
    (!p.socketClosed c) = decide (p.state? c = some .opened) := by
  have hcount := count_idle_le hk c
  have hpos := List.count_pos_iff.2 hc
  have howned := hp.owned c
  unfold state? at howned ⊢
  unfold socketClosed
  cases hs : p.sockets[c]? with
  | none =>
    simp only [hs, Option.map_none, Owned] at howned
    omega
  | some s =>
    simp only [hs, Option.map_some] at howned ⊢
    obtain ⟨home, state, queued⟩ := s
    cases state with
    | opened | closing | closed => rfl
    | connecting | refused | lost =>
      simp only [Owned] at howned
      omega

/-- No more connections are idle and open than take room. -/
theorem Books.openIdle_le (hp : Sound p) (hk : p.pools[k]? = some x) :
    (p.openIdle x).length ≤ x.live := by
  have hlive := hp.balanced k x hk
  have hle : (p.openIdle x).length ≤ p.roomTaken k := by
    refine length_le_countP ((hp.nodup_idle hk).filter _) fun c hc => ?_
    obtain ⟨hidle, hopened⟩ := List.mem_filter.1 hc
    obtain ⟨s, hs, hstate⟩ := Option.map_eq_some_iff.1 (of_decide_eq_true hopened)
    have hhome := hp.idleHome k x hk c hidle
    rw [home?, hs] at hhome
    have hpool : s.pool = k := by simpa using hhome
    exact ⟨s, hs, by simp [hpool, Socket.takesRoom, hstate]⟩
  omega

theorem stats_accounted (hp : Sound p) (h : Addressed p) {address : String}
    (hcurrent : p.current.find? address = some k) :
    ∃ (x : AddressPool) (busy : Nat), p.pools[k]? = some x ∧ x.address = address ∧
      (p.openIdle x).Nodup ∧ x.live = (p.openIdle x).length + busy ∧
      p.stats address = some ⟨x.live, (p.openIdle x).length, busy⟩ := by
  have hname := h.named address k (Dict.mem_of_find? hcurrent)
  obtain ⟨x, hk, haddress⟩ := Option.map_eq_some_iff.1 hname
  have hidle : (x.idle.filter fun c => !p.socketClosed c) = p.openIdle x :=
    List.filter_congr fun c hc => hp.idle_open hk hc
  have hle := hp.openIdle_le hk
  refine ⟨x, x.live - (p.openIdle x).length, hk, haddress, (hp.nodup_idle hk).filter _,
    by omega, ?_⟩
  simp [stats, hcurrent, hk, hidle]

/-! ### The promise is kept -/

/-- **After every run in which nobody goes away in the middle of connecting, the counters of
a pool are right.** -/
theorem accounted (config : PoolConfig) (actions : List Action)
    (hleaves : noneLeaves { config := config } actions = true) :
    Accounted (max config.maxSize.toNat 1) (run { config := config } actions) := by
  have hstart := sound_empty config
  have hp : Sound (run { config := config } actions) := hstart.run actions
  have haddressed := (addressed_empty config).run hstart actions
  have hnone : NoneLost (run { config := config } actions) :=
    NoneLost.run (fun s hs => by cases hs) hstart hleaves
  have hlimit : (run { config := config } actions).limit = max config.maxSize.toNat 1 := by
    rw [limit, config_run hstart]
  generalize run { config := config } actions = p at *
  refine ⟨fun k x hk => ?_, fun c => ?_, fun s hs hroom => ?_, fun x hx => ?_, fun address => ?_,
    fun c hc => ?_, fun address k => stats_accounted hp haddressed,
    fun address hcurrent => by simp [stats, hcurrent]⟩
  · rw [← roomTaken_eq hnone]
    exact hp.balanced k x hk
  · exact (hp.owned c).openings_eq
  · obtain ⟨x, hx⟩ : ∃ x, p.pools[s.pool]? = some x :=
      ⟨_, List.getElem?_eq_getElem (hp.housed s hs)⟩
    have htaken : 0 < p.roomTaken s.pool := List.countP_pos_iff.2 ⟨s, hs, by simp [hroom]⟩
    have hlive := hp.balanced s.pool x hx
    exact ⟨x, hx, by omega⟩
  · obtain ⟨k, hk⟩ := List.getElem?_of_mem hx
    exact hlimit ▸ hp.bounded k x hk
  · exact hlimit ▸ liveAt_le haddressed hp address
  · have howned := hp.owned c
    rw [hc] at howned
    simp only [Owned, Hand.holdings_nothing] at howned
    omega

/-- An address that is forgotten after its only connection was closed, and used again: the
counts that are shown are those of the new address pool. -/
theorem accounted_address_again :
    let config : PoolConfig := { minSize := 0, maxSize := 1 }
    let actions : List Action := [.arrive "a:1", .listen 0, .noneIdle 0, .claim 0, .connected 0,
      .release 0, .mark 0, .free 0, .prune, .arrive "a:1", .listen 1, .noneIdle 1, .claim 1]
    let p := run { config := config } actions
    noneLeaves { config := config } actions = true ∧
      p.pools.map AddressPool.live = [0, 1] ∧ p.current.find? "a:1" = some 1 ∧
      p.stats "a:1" = some ⟨1, 0, 1⟩ ∧ Accounted (max config.maxSize.toNat 1) p := by
  intro config actions p
  have hleaves : noneLeaves { config := config } actions = true := by decide
  exact ⟨hleaves, by decide, by decide, by decide, accounted config actions hleaves⟩

end RemoteCall.Transport.Pool
