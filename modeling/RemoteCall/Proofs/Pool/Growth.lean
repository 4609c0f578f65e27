import RemoteCall.Proofs.Pool.Addresses

/-! What never changes in a pool.

Attempts, address pools and connections are only ever added. An attempt stays with its
address and connects once, an address pool stays with its address, and a connection stays with
its address pool and goes through its states once (`Grows`). So a connection that leads somewhere
once leads there for good (`Grows.leads`), and whoever has one has one to the address they asked
for (`leads_of_hand`). A connection at its end stays as it is, closed or left behind
(`Grows.ended`), and it is left behind only by whoever was connecting it (`lost_step`). -/
namespace RemoteCall.Transport.Pool

variable {p q r : Pool} {a : AttemptId} {c : ConnectionId} {address : String}

/-! ### Growing -/

structure Grows (p q : Pool) : Prop where
  attempts : ∀ (a : AttemptId) (x : Attempt), p.attempts[a]? = some x →
    ∃ y, q.attempts[a]? = some y ∧ y.address = x.address
  past : ∀ a, p.Past a → q.Past a
  pools : ∀ (k : PoolId) (x : AddressPool), p.pools[k]? = some x →
    ∃ y, q.pools[k]? = some y ∧ y.address = x.address
  sockets : ∀ (c : ConnectionId) (s : Socket), p.sockets[c]? = some s →
    ∃ t, q.sockets[c]? = some t ∧ t.pool = s.pool ∧ s.state.Before t.state

namespace Grows

theorem refl (p : Pool) : Grows p p :=
  ⟨fun _ x hx => ⟨x, hx, rfl⟩, fun _ => id, fun _ x hx => ⟨x, hx, rfl⟩,
    fun _ s hs => ⟨s, hs, rfl, .refl _⟩⟩

theorem trans (h : Grows p q) (h' : Grows q r) : Grows p r := by
  refine ⟨fun a x hx => ?_, fun a ha => h'.past a (h.past a ha), fun k x hx => ?_,
    fun c s hs => ?_⟩
  · obtain ⟨y, hy, hyx⟩ := h.attempts a x hx
    obtain ⟨z, hz, hzy⟩ := h'.attempts a y hy
    exact ⟨z, hz, hzy.trans hyx⟩
  · obtain ⟨y, hy, hyx⟩ := h.pools k x hx
    obtain ⟨z, hz, hzy⟩ := h'.pools k y hy
    exact ⟨z, hz, hzy.trans hyx⟩
  · obtain ⟨t, ht, hpool, hbefore⟩ := h.sockets c s hs
    obtain ⟨u, hu, hpool', hbefore'⟩ := h'.sockets c t ht
    exact ⟨u, hu, hpool'.trans hpool, hbefore.trans hbefore'⟩

theorem of_steady {may : ConnectionId → Prop} (h : Steady may p q) : Grows p q := by
  refine ⟨fun a x hx => ?_, h.past, fun k x hx => ?_, h.stays⟩
  · have hsent := congrArg (·[a]?) h.sent
    simp only [List.getElem?_map, hx, Option.map_some] at hsent
    obtain ⟨y, hy, heq⟩ := Option.map_eq_some_iff.1 hsent
    exact ⟨y, hy, (Prod.mk.inj heq).2⟩
  · have hname := h.name k
    rw [hx] at hname
    obtain ⟨y, hy, heq⟩ := Option.map_eq_some_iff.1 hname
    exact ⟨y, hy, heq⟩

theorem prune (p : Pool) : Grows p p.prune := by
  have hdropped := of_steady (Steady.dropClosedIdle (fun _ => False) p)
  exact { hdropped with }

theorem create (p : Pool) (address : String) : Grows p (p.create address).2 := by
  refine { refl p with pools := fun k x hx => ⟨x, ?_, rfl⟩ }
  exact (List.getElem?_append_left (List.getElem?_eq_some_iff.1 hx).1).trans hx

theorem poolFor (p : Pool) (address : String) : Grows p (p.poolFor address).2 := by
  unfold Pool.poolFor
  split
  · exact refl p
  · exact (prune p).trans (create p.prune address)

theorem arrive (p : Pool) (address : String) : Grows p (p.arrive address) := by
  have more (q : Pool) (x : Attempt) : Grows q { q with attempts := q.attempts ++ [x] } := by
    have hold {a : AttemptId} {y : Attempt} (hy : q.attempts[a]? = some y) :
        (q.attempts ++ [x])[a]? = some y :=
      (List.getElem?_append_left (List.getElem?_eq_some_iff.1 hy).1).trans hy
    exact { refl q with
      attempts := fun a y hy => ⟨y, hold hy, rfl⟩
      past := fun _ ⟨y, hy, hpast⟩ => ⟨y, hold hy, hpast⟩ }
  unfold Pool.arrive
  split
  · exact more p _
  · exact (poolFor p address).trans (more _ _)

/-- **Every step only adds to a pool.** -/
theorem step (hp : Sound p) (action : Action) : Grows p (p.step action) := by
  obtain hsteady | ⟨address, rfl⟩ | rfl := Steady.step hp action
  · exact of_steady hsteady
  · exact arrive p address
  · exact prune p

end Grows

/-- A new attempt stands at the end and has the address it came with. -/
theorem attempt_arrive (p : Pool) (address : String) :
    ∃ x, (p.arrive address).attempts[p.attempts.length]? = some x ∧ x.address = address := by
  have hsame : (p.poolFor address).2.attempts.length = p.attempts.length := by
    unfold Pool.poolFor
    split
    · rfl
    · have hsent := congrArg List.length (Steady.dropClosedIdle (fun _ => False) p).sent
      rw [List.length_map, List.length_map] at hsent
      exact hsent
  unfold Pool.arrive
  split
  · exact ⟨⟨address, none, .off, .failed .shutDown⟩, List.getElem?_concat_length, rfl⟩
  · refine ⟨⟨address, some (p.poolFor address).1, .off, .arrived⟩, ?_, rfl⟩
    rw [← hsame]
    exact List.getElem?_concat_length

/-! ### Where connections lead -/

/-- Whether a connection was begun to an address. -/
def Leads (p : Pool) (c : ConnectionId) (address : String) : Prop :=
  ∃ s x, p.sockets[c]? = some s ∧ p.pools[s.pool]? = some x ∧ x.address = address

theorem Grows.leads (h : Grows p q) (hc : p.Leads c address) : q.Leads c address := by
  obtain ⟨s, x, hs, hx, rfl⟩ := hc
  obtain ⟨t, ht, hpool, _⟩ := h.sockets c s hs
  obtain ⟨y, hy, haddress⟩ := h.pools s.pool x hx
  exact ⟨t, y, ht, hpool ▸ hy, haddress⟩

theorem Leads.addressOf (hc : p.Leads c address) : p.addressOf c = address := by
  obtain ⟨s, x, hs, hx, rfl⟩ := hc
  simp [Pool.addressOf, hs, hx]

theorem Leads.unique {other : String} (hc : p.Leads c address) (hd : p.Leads c other) :
    address = other := hc.addressOf.symm.trans hd.addressOf

theorem leads_of_home (hp : Sound p) {k : PoolId} (hc : p.home? c = some k) :
    p.Leads c (p.addressOf c) := by
  obtain ⟨s, hs, rfl⟩ := Option.map_eq_some_iff.1 hc
  obtain ⟨x, hx⟩ := hp.house hc
  exact ⟨s, x, hs, hx, by simp [Pool.addressOf, hs, hx]⟩

/-- Whoever has a connection has one to the address they asked for. -/
theorem leads_of_hand (hp : Sound p) (haddressed : Addressed p) {x : Attempt}
    (ha : p.attempts[a]? = some x) (hc : x.phase.hand.connection? = some c) :
    p.Leads c x.address := by
  have hmem := List.mem_of_getElem? ha
  obtain ⟨k, hhome, hpool⟩ := hp.attemptHome x hmem c hc
  obtain ⟨s, hs, rfl⟩ := Option.map_eq_some_iff.1 hhome
  obtain ⟨y, hy, haddress⟩ := Option.map_eq_some_iff.1 (haddressed.sent x hmem s.pool hpool)
  exact ⟨s, y, hs, hy, haddress⟩

/-! ### How far connections have come -/

/-- Whether a connection has come so far. -/
def Reached (p : Pool) (c : ConnectionId) (rank : Nat) : Prop :=
  ∃ s, p.sockets[c]? = some s ∧ rank ≤ s.state.rank

theorem Grows.reached (h : Grows p q) {rank : Nat} (hc : p.Reached c rank) : q.Reached c rank := by
  obtain ⟨s, hs, hrank⟩ := hc
  obtain ⟨t, ht, _, hbefore⟩ := h.sockets c s hs
  exact ⟨t, ht, Nat.le_trans hrank hbefore.rank_le⟩

theorem Reached.state? {rank : Nat} (hc : p.Reached c rank) :
    ∃ state, p.state? c = some state ∧ rank ≤ state.rank := by
  obtain ⟨s, hs, hrank⟩ := hc
  exact ⟨s.state, by simp [Pool.state?, hs], hrank⟩

/-- A connection that was closed or given up is not open. -/
theorem not_opened_of_reached (hc : p.Reached c 2) : p.state? c ≠ some .opened := by
  obtain ⟨state, hstate, hrank⟩ := hc.state?
  rw [hstate]
  rintro ⟨⟩
  exact absurd hrank (by decide)

/-- A connection that somebody is connecting has not come far. -/
theorem not_reached_of_connecting (hc : p.state? c = some .connecting) : ¬ p.Reached c 1 := by
  intro hreached
  obtain ⟨state, hstate, hrank⟩ := hreached.state?
  obtain rfl := Option.some.inj (hc.symm.trans hstate)
  exact absurd hrank (by decide)

theorem reached_setOpened (hc : p.state? c = some .connecting)
    (hq : q.sockets = (p.setState c .opened).sockets) : q.Reached c 1 := by
  obtain ⟨s, hs, _⟩ := Option.map_eq_some_iff.1 hc
  refine ⟨{ s with state := .opened }, ?_, Nat.le_refl _⟩
  rw [hq]
  simp [setState, modifySocket, hs]

theorem reached_connected (hp : Sound p) {x : Attempt} (ha : p.attempts[a]? = some x)
    (hx : x.phase = .connecting c) : (p.step (.connected a)).Reached c 1 := by
  obtain ⟨k, _, hk⟩ := hp.attemptHome x (List.mem_of_getElem? ha) c (by rw [hx]; rfl)
  refine reached_setOpened (hp.state?_of_openings (openings_of_attempt ha hx)) ?_
  have hstep : p.step (.connected a) = (p.setState c .opened).lease a k c := by
    show p.onAttempt a (.connected a) = _
    unfold onAttempt
    rw [ha]
    dsimp only
    rw [hk, hx]
    rfl
  have hhung := congrArg (fun p => p.sockets) (hushed_hangUp
    ((p.setState c .opened).modifyPool k fun y => { y with busy := y.busy ++ [c] }) a)
  rw [hstep]
  exact hhung

theorem reached_warmConnected (hp : Sound p) {w : WarmUpId} {y : WarmUp}
    (hw : p.warmUps[w]? = some y) (hy : y.connecting = some c) :
    (p.step (.warmConnected w)).Reached c 1 := by
  refine reached_setOpened (hp.state?_of_openings (openings_of_warmUp hw hy)) ?_
  have hcalled := congrArg (fun p => p.sockets) (hushed_callOne
    ((p.setState c .opened).modifyPool y.pool fun z => { z with idle := z.idle ++ [c] }) y.pool)
  show (p.onWarmUp w Pool.warmConnected).sockets = _
  unfold onWarmUp
  rw [hw]
  dsimp only
  unfold Pool.warmConnected
  rw [hy]
  exact hcalled

/-! ### Connections and attempts at their end -/

/-- A connection at its end stays as it is. -/
theorem Grows.ended (h : Grows p q) {state : SocketState} (hc : p.state? c = some state)
    (hstate : state.rank = 3) : q.state? c = some state := by
  obtain ⟨s, hs, rfl⟩ := Option.map_eq_some_iff.1 hc
  obtain ⟨t, ht, -, hbefore⟩ := h.sockets c s hs
  rw [state?, ht, Option.map_some, hbefore.eq_of_rank hstate]

/-- Whoever goes away in the middle of connecting leaves the connection behind. -/
theorem lost_of_leaves (hp : Sound p) {action : Action} (hleaves : p.Leaves action c) :
    (p.step action).state? c = some .lost := by
  obtain ⟨a, rfl, hphase⟩ := hleaves
  obtain ⟨x, ha, hx⟩ := Option.map_eq_some_iff.1 hphase
  obtain ⟨k, hhome, hk⟩ := hp.attemptHome x (List.mem_of_getElem? ha) c (by rw [hx]; rfl)
  obtain ⟨s, hs, -⟩ := Option.map_eq_some_iff.1 hhome
  have hstep : p.step (.abandon a) = ((p.setState c .lost).hangUp a).setPhase a .done := by
    show p.onAttempt a (.abandon a) = _
    unfold onAttempt
    rw [ha]
    dsimp only
    rw [hk, hx]
    rfl
  have hhung := congrArg (fun p => p.state? c) (hushed_hangUp (p.setState c .lost) a)
  rw [hstep]
  exact hhung.trans (state?_setState_self hs .lost)

/-- **A connection is left behind by whoever was connecting it**, by nobody else, and for good. -/
theorem lost_step (hp : Sound p) (action : Action) :
    (p.step action).state? c = some .lost ↔ p.state? c = some .lost ∨ p.Leaves action c :=
  ⟨lost_of_step hp, fun h => h.elim (fun hc => (Grows.step hp action).ended hc rfl)
    (lost_of_leaves hp)⟩

theorem leaves_abandon : p.Leaves (.abandon a) c ↔ p.phase? a = some (.connecting c) := by
  simp [Leaves]

/-- An attempt that has got its connection, or is over, is not connecting. -/
theorem Past.not_leaves (h : p.Past a) : ¬ p.Leaves (.abandon a) c := by
  rw [leaves_abandon]
  intro hphase
  obtain ⟨x, ha, hpast⟩ := h
  have hx : x.phase = .connecting c := by simpa [phase?, ha] using hphase
  rw [hx] at hpast
  cases hpast

theorem phase_of_setPhase {phase : AttemptPhase} {x : Attempt}
    (hx : (p.setPhase a phase).attempts[a]? = some x) : x.phase = phase := by
  simp only [setPhase, modifyAttempt, List.getElem?_modify_eq] at hx
  obtain ⟨y, -, rfl⟩ := Option.map_eq_some_iff.1 hx
  rfl

/-- **Whoever goes away has nothing any more**, neither a connection nor one that is being made. -/
theorem hand_abandon (hp : Sound p) {x : Attempt}
    (hx : (p.step (.abandon a)).attempts[a]? = some x) : x.phase.hand = .nothing := by
  have hdone {q : Pool} (hx : (q.setPhase a .done).attempts[a]? = some x) :
      x.phase.hand = .nothing := by rw [phase_of_setPhase hx]; rfl
  change (p.onAttempt a (.abandon a)).attempts[a]? = some x at hx
  unfold onAttempt at hx
  split at hx
  · next y hy =>
    have hhome := hp.attemptHome y (List.mem_of_getElem? hy)
    split at hx
    · cases hphase : y.phase with
      | waiting | connecting c | leased c =>
        rw [hphase] at hx
        exact hdone hx
      | arrived | looking | claiming | done | failed e =>
        rw [hphase] at hx
        obtain rfl := Option.some.inj (hy.symm.trans hx)
        rw [hphase]
        rfl
    · next hnone =>
      obtain rfl := Option.some.inj (hy.symm.trans hx)
      cases hphase : y.phase with
      | connecting c | leased c =>
        obtain ⟨k, -, hk⟩ := hhome c (by rw [hphase]; rfl)
        exact nomatch hnone.symm.trans hk
      | _ => rfl
  · next hnone => exact nomatch hnone.symm.trans hx

end RemoteCall.Transport.Pool
