import RemoteCall.Proofs.Pool.Accounts

/-! Which address pool an address uses.

An address pool is forgotten when nothing is left of it and created anew when its address
is used again, so one address may have had many. Only the one in use can have anything
going on: whoever still needs an address pool, and every connection that takes room in it,
keeps it from being forgotten (`Addressed`). -/
namespace RemoteCall.Transport

namespace SocketState

/-- How far a connection has come: being connected, open, marked as closed, at its end. -/
def rank : SocketState → Nat
  | connecting => 0
  | opened => 1
  | closing => 2
  | closed | refused | lost => 3

/-- Whether a connection may be in a state first and then in another. -/
def Before (state next : SocketState) : Prop := state = next ∨ state.rank < next.rank

theorem Before.refl (state : SocketState) : state.Before state := .inl rfl

theorem Before.trans {r s t : SocketState} (h : r.Before s) (h' : s.Before t) : r.Before t := by
  obtain rfl | hlt := h
  · exact h'
  · obtain rfl | hlt' := h'
    · exact .inr hlt
    · exact .inr (Nat.lt_trans hlt hlt')

theorem Before.rank_le {s t : SocketState} (h : s.Before t) : s.rank ≤ t.rank := by
  obtain rfl | hlt := h
  · exact Nat.le_refl _
  · exact Nat.le_of_lt hlt

/-- A connection at its end stays as it is. -/
theorem Before.eq_of_rank {s t : SocketState} (h : s.Before t) (hs : s.rank = 3) : t = s := by
  obtain rfl | hlt := h
  · rfl
  · have : t.rank ≤ 3 := by cases t <;> decide
    omega

end SocketState

/-- Whether somebody has a connection, or wants none any more. -/
def AttemptPhase.past : AttemptPhase → Bool
  | leased _ | done | failed _ => true
  | arrived | looking | claiming | connecting _ | waiting => false

namespace Pool

variable {p q : Pool} {a : AttemptId} {x : Attempt} {k : PoolId} {c : ConnectionId}

/-- Whether anything is going on at an address pool. -/
def Active (p : Pool) (k : PoolId) : Prop :=
  (∃ x ∈ p.attempts, x.holds k = true) ∨ (∃ w ∈ p.warmUps, w.pool = k ∧ w.ended = false) ∨
    ∃ x, p.pools[k]? = some x ∧ 0 < x.live

structure Addressed (p : Pool) : Prop where
  /-- An attempt was sent to an address pool of its address. -/
  sent : ∀ x ∈ p.attempts, ∀ k, x.pool = some k →
    (p.pools[k]?).map AddressPool.address = some x.address
  named : ∀ address k, (address, k) ∈ p.current →
    (p.pools[k]?).map AddressPool.address = some address
  /-- What is active is in use. -/
  inUse : ∀ (k : PoolId) (x : AddressPool), p.pools[k]? = some x → p.Active k →
    p.current.find? x.address = some k

/-- Whether an attempt has got its connection, or is over. -/
def Past (p : Pool) (a : AttemptId) : Prop := ∃ x, p.attempts[a]? = some x ∧ x.phase.past = true

/-- No connection was left behind by whoever was connecting it. -/
def NoneLost (p : Pool) : Prop := ∀ s ∈ p.sockets, s.state ≠ .lost

/-! ### Steps that touch no addresses -/

/-- From `p` to `q` everybody stays where they were sent, nothing becomes active, and no
connection is left behind but those that may be. -/
structure Steady (may : ConnectionId → Prop) (p q : Pool) : Prop where
  config : q.config = p.config
  current : q.current = p.current
  names : q.pools.map AddressPool.address = p.pools.map AddressPool.address
  sent : q.attempts.map (fun x => (x.pool, x.address)) =
    p.attempts.map fun x => (x.pool, x.address)
  active : ∀ k, q.Active k → p.Active k
  lost : ∀ c, q.state? c = some .lost → p.state? c = some .lost ∨ may c
  /-- A connection stays at its address pool and goes through its states once. -/
  stays : ∀ (c : ConnectionId) (s : Socket), p.sockets[c]? = some s →
    ∃ t, q.sockets[c]? = some t ∧ t.pool = s.pool ∧ s.state.Before t.state
  /-- An attempt connects once. -/
  past : ∀ a, p.Past a → q.Past a

namespace Steady

variable {may : ConnectionId → Prop}

theorem refl (may : ConnectionId → Prop) (p : Pool) : Steady may p p :=
  ⟨rfl, rfl, rfl, rfl, fun _ => id, fun _ => .inl, fun _ s hs => ⟨s, hs, rfl, .refl _⟩,
    fun _ => id⟩

theorem name (h : Steady may p q) (k : PoolId) :
    (q.pools[k]?).map AddressPool.address = (p.pools[k]?).map AddressPool.address := by
  rw [← List.getElem?_map, h.names, List.getElem?_map]

theorem addressed (h : Steady may p q) (hp : Addressed p) : Addressed q := by
  refine ⟨fun x hx k hk => ?_, fun address k hk => ?_, fun k x hk hactive => ?_⟩
  · have hmem : (x.pool, x.address) ∈ p.attempts.map fun x => (x.pool, x.address) :=
      h.sent ▸ List.mem_map_of_mem hx
    obtain ⟨y, hy, heq⟩ := List.mem_map.1 hmem
    obtain ⟨hpool, haddress⟩ := Prod.mk.inj heq
    rw [h.name, ← haddress]
    exact hp.sent y hy k (hpool.trans hk)
  · rw [h.name]
    exact hp.named address k (h.current ▸ hk)
  · have hname := h.name k
    rw [hk] at hname
    obtain ⟨y, hy, heq⟩ := Option.map_eq_some_iff.1 hname.symm
    rw [h.current, ← heq]
    exact hp.inUse k y hy (h.active k hactive)

/-- Calls are no activity. -/
theorem quiet (h : Steady may p q) {r : Pool} (heq : r.hushed = q.hushed) : Steady may p r := by
  have active (s : Pool) (k : PoolId) : s.hushed.Active k ↔ s.Active k := by
    refine or_congr ?_ (or_congr_right ?_)
    · simp only [hushed, List.mem_map, exists_exists_and_eq_and]
      rfl
    · rw [pools_hushed]
      constructor
      · rintro ⟨x, hx, hlive⟩
        obtain ⟨y, hy, rfl⟩ := Option.map_eq_some_iff.1 hx
        exact ⟨y, hy, hlive⟩
      · rintro ⟨x, hx, hlive⟩
        exact ⟨x.hushed, by rw [hx]; rfl, hlive⟩
  have names (s : Pool) : s.hushed.pools.map AddressPool.address =
      s.pools.map AddressPool.address := by
    simp only [hushed, List.map_map]
    rfl
  have sent (s : Pool) : s.hushed.attempts.map (fun x => (x.pool, x.address)) =
      s.attempts.map fun x => (x.pool, x.address) := by
    simp only [hushed, List.map_map]
    rfl
  have hconfig : r.config = q.config := congrArg (fun p => p.config) heq
  have hcurrent : r.current = q.current := congrArg (fun p => p.current) heq
  have hsockets : r.sockets = q.sockets := congrArg (fun p => p.sockets) heq
  refine ⟨hconfig.trans h.config, hcurrent.trans h.current, ?_, ?_, fun k hk => h.active k ?_,
    fun c hc => h.lost c ?_, fun c s hs => ?_, fun a ha => ?_⟩
  · rw [← names r, heq, names, h.names]
  · rw [← sent r, heq, sent, h.sent]
  · rwa [← active, ← heq, active]
  · rwa [state?, ← hsockets]
  · rw [hsockets]
    exact h.stays c s hs
  · obtain ⟨y, hy, hpast⟩ := h.past a ha
    have hattempt : (r.attempts[a]?).map Attempt.hushed = some y.hushed := by
      rw [← List.getElem?_map, show r.attempts.map Attempt.hushed = q.attempts.map Attempt.hushed
        from congrArg (fun p => p.attempts) heq, List.getElem?_map, hy]
      rfl
    obtain ⟨z, hz, hzy⟩ := Option.map_eq_some_iff.1 hattempt
    have hphase : z.hushed.phase = y.hushed.phase := congrArg Attempt.phase hzy
    exact ⟨z, hz, (congrArg AttemptPhase.past hphase).trans hpast⟩

theorem setPhase (h : Steady may p q) (ha : p.attempts[a]? = some x) (hk : x.pool = some k)
    (hactive : p.Active k) {phase : AttemptPhase} (hpast : x.phase.past = false ∨ phase.past = true) :
    Steady may p (q.setPhase a phase) := by
  have hsent : (q.attempts[a]?).map (fun x => (x.pool, x.address)) = some (x.pool, x.address) := by
    rw [← List.getElem?_map, h.sent, List.getElem?_map, ha]
    rfl
  obtain ⟨y, hy, heq⟩ := Option.map_eq_some_iff.1 hsent
  refine ⟨h.config, h.current, h.names, ?_, fun j hj => ?_, h.lost, h.stays, fun b hb => ?_⟩
  · rw [← h.sent]
    exact map_modify_of_eq (fun x : Attempt => { x with phase := phase }) _ (fun _ => rfl) _ _
  · obtain ⟨z, hz, hholds⟩ | hrest := hj
    · obtain hz | rfl := mem_modify hy hz
      · exact h.active j (.inl ⟨z, hz, hholds⟩)
      · have hpool : y.pool = some k := (Prod.mk.inj heq).1.trans hk
        have hjk : j = k := by
          simp only [Attempt.holds, hpool, Bool.and_eq_true, decide_eq_true_eq] at hholds
          exact (Option.some.inj hholds.1).symm
        exact hjk ▸ hactive
    · exact h.active j (.inr hrest)
  · obtain ⟨z, hz, hzpast⟩ := h.past b hb
    by_cases hab : a = b
    · subst hab
      obtain ⟨w, hw, hwpast⟩ := hb
      obtain rfl := Option.some.inj (ha.symm.trans hw)
      exact ⟨{ z with phase := phase }, by simp [Pool.setPhase, modifyAttempt, hz],
        hpast.resolve_left (by simp [hwpast])⟩
    · exact ⟨z, by simp [Pool.setPhase, modifyAttempt, hab, hz], hzpast⟩

theorem modifyPool (h : Steady may p q) (k : PoolId) (f : AddressPool → AddressPool)
    (name : ∀ x, (f x).address = x.address)
    (live : (∀ x, (f x).live ≤ x.live) ∨ p.Active k) : Steady may p (q.modifyPool k f) := by
  refine ⟨h.config, h.current, ?_, h.sent, fun j hj => ?_, h.lost, h.stays, h.past⟩
  · rw [← h.names]
    exact map_modify_of_eq f _ name _ _
  · obtain hattempt | hwarm | ⟨y, hy, hlive⟩ := hj
    · exact h.active j (.inl hattempt)
    · exact h.active j (.inr (.inl hwarm))
    · obtain ⟨z, hz, ⟨rfl, rfl⟩ | ⟨_, rfl⟩⟩ := entry_modifyPool hy
      · obtain hle | hactive := live
        · exact h.active k (.inr (.inr ⟨z, hz, Nat.lt_of_lt_of_le hlive (hle z)⟩))
        · exact hactive
      · exact h.active j (.inr (.inr ⟨y, hz, hlive⟩))

theorem giveRoom (h : Steady may p q) (hactive : p.Active k) : Steady may p (q.giveRoom k) :=
  (h.modifyPool k (fun x => { x with live := countDown x.live }) (fun _ => rfl)
    (.inr hactive)).quiet (hushed_giveRoom q k)

/-- A change of connections alone. -/
theorem sockets (h : Steady may p q) (sockets : List Socket)
    (lost : ∀ (c : ConnectionId) (s : Socket), sockets[c]? = some s → s.state = .lost →
      q.state? c = some .lost ∨ may c)
    (stays : ∀ (c : ConnectionId) (s : Socket), q.sockets[c]? = some s →
      ∃ t, sockets[c]? = some t ∧ t.pool = s.pool ∧ s.state.Before t.state) :
    Steady may p { q with sockets := sockets } := by
  refine ⟨h.config, h.current, h.names, h.sent, h.active, fun c hc => ?_, fun c s hs => ?_, h.past⟩
  · obtain ⟨s, hs, hstate⟩ := Option.map_eq_some_iff.1 hc
    exact (lost c s hs hstate).elim (h.lost c) .inr
  · obtain ⟨t, ht, hpool, hbefore⟩ := h.stays c s hs
    obtain ⟨u, hu, hpool', hbefore'⟩ := stays c t ht
    exact ⟨u, hu, hpool'.trans hpool, hbefore.trans hbefore'⟩

theorem modifySocket (h : Steady may p q) (c : ConnectionId) {f : Socket → Socket}
    (hpool : ∀ s, (f s).pool = s.pool)
    (hlost : ∀ s, q.sockets[c]? = some s → (f s).state = .lost → s.state = .lost ∨ may c)
    (hbefore : ∀ s, q.sockets[c]? = some s → s.state.Before (f s).state) :
    Steady may p (q.modifySocket c f) := by
  refine h.sockets _ (fun d s hs hstate => ?_) fun d s hs => ?_
  · rw [List.getElem?_modify] at hs
    obtain ⟨t, ht, rfl⟩ := Option.map_eq_some_iff.1 hs
    have hbefore (hlost : t.state = .lost) : q.state? d = some .lost := by simp [state?, ht, hlost]
    split at hstate
    · next hcd =>
      subst hcd
      exact (hlost t ht hstate).imp_left hbefore
    · exact .inl (hbefore hstate)
  · rw [List.getElem?_modify, hs]
    by_cases hcd : c = d
    · exact ⟨f s, by simp [hcd], hpool s, hbefore s (hcd ▸ hs)⟩
    · exact ⟨s, by simp [hcd], rfl, .refl _⟩

/-- A connection goes on to another state. -/
theorem setState (h : Steady may p q) {c : ConnectionId} {before : SocketState}
    (hc : q.state? c = some before) (state : SocketState) (hrank : before.rank < state.rank)
    (hlost : state = .lost → may c) : Steady may p (q.setState c state) := by
  refine h.modifySocket c (fun _ => rfl) (fun _ _ hs => .inr (hlost hs)) fun s hs => .inr ?_
  obtain rfl : s.state = before := by simpa [state?, hs] using hc
  exact hrank

theorem begin (h : Steady may p q) (hactive : p.Active k) : Steady may p (q.begin k).2 := by
  have htaken := h.modifyPool k (fun x => { x with live := x.live + 1 }) (fun _ => rfl)
    (.inr hactive)
  refine htaken.sockets _ (fun c s hs hstate => .inl ?_) fun c s hs => ?_
  · rw [List.getElem?_append] at hs
    split at hs
    · rw [state?_modifyPool, state?, hs]
      exact congrArg some hstate
    · rw [List.mem_singleton.1 (List.mem_of_getElem? hs)] at hstate
      cases hstate
  · have hlt := (List.getElem?_eq_some_iff.1 hs).1
    exact ⟨s, (List.getElem?_append_left hlt).trans hs, rfl, .refl _⟩

theorem setWarmUp (h : Steady may p q) {w : WarmUpId} (y : WarmUp) (hactive : p.Active y.pool) :
    Steady may p (q.setWarmUp w y) := by
  refine ⟨h.config, h.current, h.names, h.sent, fun j hj => ?_, h.lost, h.stays, h.past⟩
  obtain hattempt | ⟨z, hz, rfl, hended⟩ | hlive := hj
  · exact h.active j (.inl hattempt)
  · obtain hz | rfl := List.mem_or_eq_of_mem_set hz
    · exact h.active _ (.inr (.inl ⟨z, hz, rfl, hended⟩))
    · exact hactive
  · exact h.active j (.inr (.inr hlive))

/-- A connection that takes room is an activity. -/
theorem active_of_takesRoom {hand : Hand} {debt : Option PoolId} (h : Books hand debt p)
    {s : Socket} (hs : p.sockets[c]? = some s) (hroom : s.takesRoom = true) :
    p.Active s.pool := by
  have hmem := List.mem_of_getElem? hs
  obtain ⟨x, hx⟩ : ∃ x, p.pools[s.pool]? = some x :=
    ⟨_, List.getElem?_eq_getElem (h.housed s hmem)⟩
  have htaken : 0 < p.roomTaken s.pool :=
    List.countP_pos_iff.2 ⟨s, hmem, by simp [hroom]⟩
  have := h.balanced s.pool x hx
  exact .inr (.inr ⟨x, hx, by omega⟩)

theorem close (h : Steady may p q) {hand : Hand} (hbooks : Books hand none q) (c : ConnectionId) :
    Steady may p (q.close c) := by
  unfold Pool.close
  split
  · next s hs =>
    split
    · next hopened =>
      have hroom : s.takesRoom = true := by simp [Socket.takesRoom, hopened]
      have hactive := h.active _ (active_of_takesRoom hbooks hs hroom)
      have hstate : q.state? c = some .opened := by simp [state?, hs, hopened]
      exact (h.setState hstate .closed (by decide) (by simp)).giveRoom hactive
    · exact h
  · exact h

/-! ### Steps -/

theorem lease (h : Steady may p q) (ha : p.attempts[a]? = some x) (hk : x.pool = some k)
    (hactive : p.Active k) (c : ConnectionId) : Steady may p (q.lease a k c) := by
  have hnoted := h.modifyPool k (fun y : AddressPool => { y with busy := y.busy ++ [c] })
    (fun _ => rfl) (.inr hactive)
  exact (hnoted.quiet (hushed_hangUp _ a)).setPhase ha hk hactive (.inr rfl)

theorem release (hp : Sound p) (ha : p.attempts[a]? = some x) (hk : x.pool = some k)
    (hactive : p.Active k) (c : ConnectionId) : Steady may p (p.release a k c) := by
  have hnoted := (refl may p).modifyPool k (fun y : AddressPool => { y with busy := y.busy.erase c })
    (fun _ => rfl) (.inr hactive)
  unfold Pool.release
  dsimp only
  split
  · have hclosed := hnoted.close (hp.note k _ (fun _ => rfl) fun _ => rfl) c
    exact (hclosed.quiet (hushed_callOne _ k)).setPhase ha hk hactive (.inr rfl)
  · have hidle := hnoted.modifyPool k (fun y : AddressPool => { y with idle := y.idle ++ [c] })
      (fun _ => rfl) (.inr hactive)
    exact (hidle.quiet (hushed_callOne _ k)).setPhase ha hk hactive (.inr rfl)

theorem listen (ha : p.attempts[a]? = some x) (hk : x.pool = some k) (hactive : p.Active k)
    (hpast : x.phase.past = false) : Steady may p (p.listen a k) := by
  have hheard := (refl may p).quiet (hushed_startListening p a k)
  unfold Pool.listen
  dsimp only
  split
  · exact (hheard.quiet (hushed_hangUp _ a)).setPhase ha hk hactive (.inl hpast)
  · exact hheard.setPhase ha hk hactive (.inl hpast)

theorem take (hp : Sound p) (ha : p.attempts[a]? = some x) (hk : x.pool = some k)
    (hactive : p.Active k) (c : ConnectionId) : Steady may p (p.take a k c) := by
  unfold Pool.take
  split
  · exact refl may p
  · next y hy =>
    split
    · next hc =>
      have htaken := (refl may p).modifyPool k (fun x => { x with idle := x.idle.erase c })
        (fun _ => rfl) (.inr hactive)
      dsimp only
      split
      · exact htaken.lease ha hk hactive c
      · exact htaken.close (hp.takeIdle hy (by simpa using hc)) c
    · exact refl may p

theorem claim (ha : p.attempts[a]? = some x) (hk : x.pool = some k) (hactive : p.Active k)
    (hpast : x.phase.past = false) : Steady may p (p.claim a k) := by
  unfold Pool.claim
  split
  · exact ((refl may p).begin hactive).setPhase ha hk hactive (.inl hpast)
  · exact (refl may p).setPhase ha hk hactive (.inl hpast)

theorem attemptStep (hp : Sound p) (ha : p.attempts[a]? = some x) (hk : x.pool = some k)
    (action : Action) (hmay : ∀ b c, action = .abandon b → x.phase = .connecting c → may c) :
    Steady may p (p.stepAttempt a k x.phase x.ear x.address action) := by
  have active (hholds : x.holds k = true) : p.Active k :=
    .inl ⟨x, List.mem_of_getElem? ha, hholds⟩
  have connecting {c : ConnectionId} (hx : x.phase = .connecting c) :
      p.state? c = some .connecting := hp.state?_of_openings (openings_of_attempt ha hx)
  have start := refl may p
  refine stepAttempt_of (P := Steady may p) start ?listen ?take ?goOn ?claim ?connected ?refuse
    ?lose ?wake ?fail ?quit ?release
  case listen =>
    intro hx
    exact listen ha hk (active (by simp [Attempt.holds, hk, hx])) (by rw [hx]; rfl)
  case take =>
    intro c hx
    exact take hp ha hk (active (by simp [Attempt.holds, hk, hx])) c
  case goOn =>
    intro _ _ _ hx
    exact start.setPhase ha hk (active (by simp [Attempt.holds, hk, hx])) (.inl (by rw [hx]; rfl))
  case claim =>
    intro hx
    exact claim ha hk (active (by simp [Attempt.holds, hk, hx])) (by rw [hx]; rfl)
  case connected =>
    intro c hx
    have hopened := start.setState (connecting hx) .opened (by decide) (by simp)
    exact hopened.lease ha hk (active (by simp [Attempt.holds, hk, hx])) c
  case refuse =>
    intro c e hx
    have hactive := active (by simp [Attempt.holds, hk, hx])
    have hrefused := start.setState (connecting hx) .refused (by decide) (by simp)
    have hfreed := hrefused.giveRoom hactive
    exact (hfreed.quiet (hushed_hangUp _ a)).setPhase ha hk hactive (.inr rfl)
  case lose =>
    intro b c hb hx
    have hlost := start.setState (connecting hx) .lost (by decide) fun _ => hmay b c hb hx
    exact (hlost.quiet (hushed_hangUp _ a)).setPhase ha hk
      (active (by simp [Attempt.holds, hk, hx])) (.inr rfl)
  case wake =>
    intro _ hx
    have hcalled := start.quiet (hushed_setEar p a .off)
    exact hcalled.setPhase ha hk (active (by simp [Attempt.holds, hk, hx]))
      (.inl (by rw [hx]; rfl))
  case fail =>
    intro e hx
    have hhung := start.quiet (hushed_hangUp p a)
    exact hhung.setPhase ha hk (active (by simp [Attempt.holds, hk, hx])) (.inr rfl)
  case quit =>
    intro hx
    have hhung := start.quiet (hushed_hangUp p a)
    exact hhung.setPhase ha hk (active (by simp [Attempt.holds, hk, hx])) (.inr rfl)
  case release =>
    intro c hx
    exact release hp ha hk (active (by simp [Attempt.holds, hk, hx])) c

theorem active_of_warmUp {w : WarmUpId} {y : WarmUp} (hw : p.warmUps[w]? = some y)
    (hended : y.ended = false) : p.Active y.pool :=
  .inr (.inl ⟨y, List.mem_of_getElem? hw, rfl, hended⟩)

theorem warm {w : WarmUpId} {y : WarmUp} (hw : p.warmUps[w]? = some y) :
    Steady may p (p.warm w y) := by
  unfold Pool.warm
  split
  · next left _ _ hleft =>
    have hactive := active_of_warmUp hw (by simp [WarmUp.ended, hleft])
    split
    · exact (refl may p).setWarmUp _ hactive
    · exact ((refl may p).begin hactive).setWarmUp _ hactive
  · exact refl may p

theorem warmConnected (hp : Sound p) {w : WarmUpId} {y : WarmUp} (hw : p.warmUps[w]? = some y) :
    Steady may p (p.warmConnected w y) := by
  unfold Pool.warmConnected
  split
  · next c hc =>
    have hactive := active_of_warmUp hw (by simp [WarmUp.ended, hc])
    have hconnecting := hp.state?_of_openings (openings_of_warmUp hw hc)
    have hopened := (refl may p).setState hconnecting .opened (by decide) (by simp)
    have hidle := hopened.modifyPool y.pool
      (fun z : AddressPool => { z with idle := z.idle ++ [c] }) (fun _ => rfl) (.inr hactive)
    exact (hidle.quiet (hushed_callOne _ y.pool)).setWarmUp _ hactive
  · exact refl may p

theorem warmRefused (hp : Sound p) {w : WarmUpId} {y : WarmUp} (hw : p.warmUps[w]? = some y) :
    Steady may p (p.warmRefused w y) := by
  unfold Pool.warmRefused
  split
  · next c hc =>
    have hactive := active_of_warmUp hw (by simp [WarmUp.ended, hc])
    have hconnecting := hp.state?_of_openings (openings_of_warmUp hw hc)
    have hrefused := (refl may p).setState hconnecting .refused (by decide) (by simp)
    exact (hrefused.giveRoom hactive).setWarmUp _ hactive
  · exact refl may p

theorem closeEach (h : Steady may p q) (hq : Sound q) (cs : List ConnectionId) :
    Steady may p (cs.foldl Pool.close q) := by
  induction cs generalizing q with
  | nil => exact h
  | cons c rest ih => exact ih (h.close hq c) (hq.close c)

theorem closeAll (h : Steady may p q) (hq : Sound q) (k : PoolId) : Steady may p (q.closeAll k) := by
  unfold Pool.closeAll
  split
  · exact h
  · next y _ =>
    have hclosed := h.closeEach hq (y.idle ++ y.busy)
    exact (hclosed.modifyPool k (fun z => { z with idle := [], busy := [] }) (fun _ => rfl)
      (.inl fun _ => Nat.le_refl _)).quiet (hushed_callAll _ k)

theorem beginShutDown (hp : Sound p) : Steady may p p.beginShutDown := by
  unfold Pool.beginShutDown
  split
  · exact refl may p
  · have hflag : Steady may p { p with shutDown := true } :=
      { refl may p with }
    have hsound := hp.elsewhere p.current true
    generalize p.current.values = ks
    generalize ({ p with shutDown := true } : Pool) = q at hflag hsound ⊢
    induction ks generalizing q with
    | nil => exact hflag
    | cons k rest ih => exact ih (q.closeAll k) (hflag.closeAll hsound k) (hsound.closeAll k)

theorem dropClosedIdle (may : ConnectionId → Prop) (p : Pool) : Steady may p p.dropClosedIdle := by
  unfold Pool.dropClosedIdle
  suffices h : ∀ (ks : List PoolId) (q : Pool), Steady may p q →
      Steady may p (ks.foldl (fun p k => p.modifyPool k fun x =>
        { x with idle := x.idle.filter fun c => !p.socketClosed c }) q) from h _ p (refl may p)
  intro ks
  induction ks with
  | nil => exact fun q h => h
  | cons k rest ih =>
    refine fun q h => ih _ (h.modifyPool k _ (fun _ => rfl) (.inl fun _ => ?_))
    exact Nat.le_refl _

end Steady

/-! ### Addresses come and go -/

theorem unused_eq_false (hactive : p.Active k) {x : AddressPool} (hk : p.pools[k]? = some x) :
    p.unused k = false := by
  unfold unused
  rw [hk]
  obtain ⟨y, hy, hholds⟩ | ⟨w, hw, rfl, hended⟩ | ⟨y, hy, hlive⟩ := hactive
  · have hused : p.used k = true := by
      simp only [used, Bool.or_eq_true, List.any_eq_true]
      exact .inl ⟨y, hy, hholds⟩
    simp [hused]
  · have hused : p.used w.pool = true := by
      simp only [used, Bool.or_eq_true, List.any_eq_true]
      exact .inr ⟨w, hw, by simp [hended]⟩
    simp [hused]
  · obtain rfl := Option.some.inj (hk.symm.trans hy)
    simp [Nat.ne_of_gt hlive]

/-- What is forgotten is not active. -/
theorem Addressed.prune (h : Addressed p) : Addressed p.prune := by
  have hdropped := (Steady.dropClosedIdle (fun _ => False) p).addressed h
  refine ⟨hdropped.sent, fun address k hk => ?_, fun k x hk hactive => ?_⟩
  · exact hdropped.named address k (List.mem_filter.1 hk).1
  · have hfound := hdropped.inUse k x hk hactive
    refine Dict.find?_filter_of_some hfound ?_
    simp [unused_eq_false (p := p.dropClosedIdle) hactive hk]

/-- A new address pool is a new one of an address that uses none. -/
theorem Addressed.create (h : Addressed p) {address : String}
    (hnone : p.current.find? address = none) : Addressed (p.create address).2 := by
  have hold {j : PoolId} (hj : j < p.pools.length) :
      (p.create address).2.pools[j]? = p.pools[j]? := by
    simp only [Pool.create]
    exact List.getElem?_append_left hj
  have hname {j : PoolId} {text : String} (hj : (p.pools[j]?).map AddressPool.address = some text) :
      ((p.create address).2.pools[j]?).map AddressPool.address = some text := by
    obtain ⟨x, hx, _⟩ := Option.map_eq_some_iff.1 hj
    rwa [hold (List.getElem?_eq_some_iff.1 hx).1]
  refine ⟨fun x hx k hk => hname (h.sent x hx k hk), fun text k hk => ?_,
    fun k x hk hactive => ?_⟩
  · obtain heq | hmem := Dict.mem_of_mem_insert hk
    · obtain ⟨rfl, rfl⟩ := Prod.mk.inj heq
      simp [Pool.create]
    · exact hname (h.named text k hmem)
  · obtain ⟨hlt, hentry⟩ := List.getElem?_eq_some_iff.1 hk
    simp only [Pool.create, List.length_append, List.length_singleton] at hlt
    rcases Nat.lt_or_eq_of_le (Nat.le_of_lt_succ hlt) with hlt | rfl
    · rw [hold hlt] at hk
      have hbefore : p.Active k := by
        obtain hattempt | ⟨w, hw, hpool, hended⟩ | ⟨y, hy, hlive⟩ := hactive
        · exact .inl hattempt
        · obtain hw | hw := List.mem_append.1 hw
          · exact .inr (.inl ⟨w, hw, hpool, hended⟩)
          · rw [List.mem_singleton.1 hw] at hpool
            exact absurd hpool.symm (Nat.ne_of_lt hlt)
        · exact .inr (.inr ⟨y, (hold hlt).symm.trans hy, hlive⟩)
      have hfound := h.inUse k x hk hbefore
      have hne : x.address ≠ address := by
        intro heq
        rw [heq, hnone] at hfound
        cases hfound
      exact (Dict.find?_insert_of_ne hne _ _).trans hfound
    · obtain rfl : x = { address := address } := by simpa [Pool.create] using hentry.symm
      exact Dict.find?_insert_self _ _ _

theorem Addressed.poolFor (h : Addressed p) (address : String) :
    Addressed (p.poolFor address).2 ∧
      ((p.poolFor address).2.pools[(p.poolFor address).1]?).map AddressPool.address =
        some address ∧
      (p.poolFor address).2.current.find? address = some (p.poolFor address).1 := by
  unfold Pool.poolFor
  split
  · next k hk => exact ⟨h, h.named address k (Dict.mem_of_find? hk), hk⟩
  · next hnone =>
    have hdropped : p.dropClosedIdle.current.find? address = none := by
      rw [(Steady.dropClosedIdle (fun _ => False) p).current, hnone]
    have hpruned : p.prune.current.find? address = none := Dict.find?_filter_of_none hdropped _
    refine ⟨h.prune.create hpruned, ?_, ?_⟩
    · simp [Pool.create]
    · exact Dict.find?_insert_self _ _ _

theorem Addressed.arrive (h : Addressed p) (address : String) :
    Addressed (p.arrive address) := by
  unfold Pool.arrive
  split
  · refine ⟨fun x hx k hk => ?_, h.named, fun k x hk hactive => ?_⟩
    · obtain hx | hx := List.mem_append.1 hx
      · exact h.sent x hx k hk
      · rw [List.mem_singleton.1 hx] at hk
        cases hk
    · refine h.inUse k x hk (hactive.imp_left ?_)
      rintro ⟨y, hy, hholds⟩
      obtain hy | hy := List.mem_append.1 hy
      · exact ⟨y, hy, hholds⟩
      · rw [List.mem_singleton.1 hy] at hholds
        simp [Attempt.holds] at hholds
  · obtain ⟨hfor, hname, hfound⟩ := h.poolFor address
    dsimp only
    refine ⟨fun x hx k hk => ?_, hfor.named, fun k x hk hactive => ?_⟩
    · obtain hx | hx := List.mem_append.1 hx
      · exact hfor.sent x hx k hk
      · rw [List.mem_singleton.1 hx] at hk ⊢
        obtain rfl := Option.some.inj hk
        exact hname
    · by_cases hpool : (p.poolFor address).1 = k
      · subst hpool
        have haddress : x.address = address := by
          have : some x.address = some address := by rw [← hname, hk]; rfl
          exact Option.some.inj this
        rw [haddress]
        exact hfound
      · refine hfor.inUse k x hk (hactive.imp_left ?_)
        rintro ⟨y, hy, hholds⟩
        obtain hy | hy := List.mem_append.1 hy
        · exact ⟨y, hy, hholds⟩
        · rw [List.mem_singleton.1 hy] at hholds
          simp [Attempt.holds, hpool] at hholds

/-! ### Steps and runs -/

/-- Whether an action is of somebody who goes away in the middle of connecting. -/
def loses (p : Pool) : Action → Bool
  | .abandon a => match p.phase? a with
    | some (.connecting _) => true
    | _ => false
  | _ => false

/-- Whether an action leaves a connection behind that somebody is connecting. -/
def Leaves (p : Pool) (action : Action) (c : ConnectionId) : Prop :=
  ∃ a, action = .abandon a ∧ p.phase? a = some (.connecting c)

/-- **Every step but those of new attempts and of forgetting touches no addresses.** -/
theorem Steady.step (hp : Sound p) (action : Action) :
    Steady (p.Leaves action) p (p.step action) ∨
      (∃ address, action = .arrive address) ∨ action = .prune := by
  have onAttempt (a : AttemptId) (action : Action)
      (hleaves : ∀ b, action = .abandon b → b = a) :
      Steady (p.Leaves action) p (p.onAttempt a action) := by
    refine onAttempt_of (P := Steady _ p) (.refl _ p) fun x k ha hk => ?_
    refine .attemptStep hp ha hk action fun b c hb hphase => ⟨b, hb, ?_⟩
    obtain rfl := hleaves b hb
    rw [phase?, ha, Option.map_some, hphase]
  have start {may : ConnectionId → Prop} : Steady may p p := .refl may p
  cases action with
  | arrive address => exact .inr (.inl ⟨address, rfl⟩)
  | prune => exact .inr (.inr rfl)
  | abandon a => exact .inl (onAttempt a _ fun b hb => (Action.abandon.inj hb).symm)
  | listen a | take a _ | noneIdle a | claim a | connected a | refused a _ | wake a | timeOut a
  | release a => exact .inl (onAttempt a _ fun b hb => by cases hb)
  | queue c =>
    refine .inl (onSocket_of (P := Steady _ p) start fun s _ => ?_)
    split
    · exact start.modifySocket c (fun _ => rfl) (fun _ _ => .inl) fun _ _ => .refl _
    · exact start
  | write c =>
    exact .inl (start.modifySocket c (fun _ => rfl) (fun _ _ => .inl) fun _ _ => .refl _)
  | mark c =>
    refine .inl (onSocket_of (P := Steady _ p) start fun s hs => ?_)
    split
    · next hopened =>
      have hstate : p.state? c = some .opened := by simp [state?, hs, hopened]
      exact start.setState hstate .closing (by decide) (by simp)
    · exact start
  | free c =>
    refine .inl (onSocket_of (P := Steady _ p) start fun s hs => ?_)
    split
    · next hclosing =>
      have hroom : s.takesRoom = true := by simp [Socket.takesRoom, hclosing]
      have hstate : p.state? c = some .closing := by simp [state?, hs, hclosing]
      exact (start.setState hstate .closed (by decide) (by simp)).giveRoom
        (Steady.active_of_takesRoom hp hs hroom)
    · exact start
  | warm w => exact .inl (onWarmUp_of (P := Steady _ p) start fun _ hw => .warm hw)
  | warmConnected w =>
    exact .inl (onWarmUp_of (P := Steady _ p) start fun _ hw => .warmConnected hp hw)
  | warmRefused w =>
    exact .inl (onWarmUp_of (P := Steady _ p) start fun _ hw => .warmRefused hp hw)
  | shutDown => exact .inl (.beginShutDown hp)

theorem Addressed.step (h : Addressed p) (hp : Sound p) (action : Action) :
    Addressed (p.step action) := by
  obtain hsteady | ⟨address, rfl⟩ | rfl := Steady.step hp action
  · exact hsteady.addressed h
  · exact h.arrive address
  · exact h.prune

theorem addressed_empty (config : PoolConfig) : Addressed { config := config } :=
  ⟨fun x hx => by simp at hx, fun address k hk => by simp at hk, fun k x hk => by simp at hk⟩

/-- **After every run, whatever is active is in use.** -/
theorem Addressed.run (h : Addressed p) (hp : Sound p) (actions : List Action) :
    Addressed (p.run actions) := by
  induction actions generalizing p with
  | nil => exact h
  | cons action rest ih => exact ih (h.step hp action) (hp.step action)

/-! ### Settings and lost connections -/

/-- Forgetting and new attempts change neither the settings nor a connection. -/
theorem prune_keeps (p : Pool) : p.prune.config = p.config ∧
    ∀ c, p.prune.state? c = some .lost → p.state? c = some .lost := by
  have hdropped := Steady.dropClosedIdle (fun _ => False) p
  exact ⟨hdropped.config, fun c hc => (hdropped.lost c hc).resolve_right id⟩

theorem arrive_keeps (p : Pool) (address : String) : (p.arrive address).config = p.config ∧
    ∀ c, (p.arrive address).state? c = some .lost → p.state? c = some .lost := by
  have hfor : (p.poolFor address).2.config = p.config ∧
      ∀ c, (p.poolFor address).2.state? c = some .lost → p.state? c = some .lost := by
    unfold Pool.poolFor
    split
    · exact ⟨rfl, fun _ => id⟩
    · exact prune_keeps p
  unfold Pool.arrive
  split
  · exact ⟨rfl, fun _ => id⟩
  · exact hfor

theorem config_step (hp : Sound p) (action : Action) : (p.step action).config = p.config := by
  obtain hsteady | ⟨address, rfl⟩ | rfl := Steady.step hp action
  · exact hsteady.config
  · exact (arrive_keeps p address).1
  · exact (prune_keeps p).1

/-- **A connection is left behind by whoever was connecting it, and by nobody else.** -/
theorem lost_of_step (hp : Sound p) {action : Action} (hc : (p.step action).state? c = some .lost) :
    p.state? c = some .lost ∨ p.Leaves action c := by
  obtain hsteady | ⟨address, rfl⟩ | rfl := Steady.step hp action
  · exact hsteady.lost c hc
  · exact .inl ((arrive_keeps p address).2 c hc)
  · exact .inl ((prune_keeps p).2 c hc)

theorem NoneLost.step (h : NoneLost p) (hp : Sound p) {action : Action}
    (hloses : p.loses action = false) : NoneLost (p.step action) := by
  intro s hs hstate
  obtain ⟨c, hc⟩ := List.getElem?_of_mem hs
  obtain hbefore | ⟨a, rfl, hphase⟩ := lost_of_step hp (by rw [state?, hc, ← hstate]; rfl)
  · obtain ⟨t, ht, hlost⟩ := Option.map_eq_some_iff.1 hbefore
    exact h t (List.mem_of_getElem? ht) hlost
  · simp [loses, hphase] at hloses

theorem config_run (hp : Sound p) (actions : List Action) : (p.run actions).config = p.config := by
  induction actions generalizing p with
  | nil => rfl
  | cons action rest ih => exact (ih (hp.step action)).trans (config_step hp action)

/-- Whether nobody goes away in the middle of connecting. -/
def noneLeaves (p : Pool) : List Action → Bool
  | [] => true
  | action :: rest => !p.loses action && (p.step action).noneLeaves rest

theorem NoneLost.run (h : NoneLost p) (hp : Sound p) {actions : List Action}
    (hleaves : p.noneLeaves actions = true) : NoneLost (p.run actions) := by
  induction actions generalizing p with
  | nil => exact h
  | cons action rest ih =>
    simp only [noneLeaves, Bool.and_eq_true, Bool.not_eq_true'] at hleaves
    exact ih (h.step hp hleaves.1) (hp.step action) hleaves.2

end Pool
end RemoteCall.Transport
