import RemoteCall.Proofs.Pool.Books

/-! Every step of a pool leaves its books in order.

Each step is followed change by change, with the connection that it moves in hand
(`Proofs.Pool.Books`). Phases and states lie in different lists, so it makes no difference
in which order a step writes them; the proofs take a connection from its attempt before
they change its state. -/
namespace RemoteCall.Transport.Pool

variable {p : Pool} {hand : Hand} {debt : Option PoolId} {a : AttemptId} {x : Attempt}
  {k : PoolId} {c : ConnectionId}

/-! ### Phases -/

theorem setPhase_setPhase (p : Pool) (a : AttemptId) (first last : AttemptPhase) :
    (p.setPhase a first).setPhase a last = p.setPhase a last := by
  simp only [setPhase, modifyAttempt, List.modify_modify_eq]
  rfl

theorem attempts_setPhase (ha : p.attempts[a]? = some x) (phase : AttemptPhase) :
    (p.setPhase a phase).attempts[a]? = some { x with phase := phase } := by
  simp [setPhase, modifyAttempt, ha]

/-- What an attempt has is in hand once it is done. -/
theorem Books.take (h : Books .nothing debt p) (ha : p.attempts[a]? = some x) :
    Books x.phase.hand debt (p.setPhase a .done) := by
  refine h.changePhase ha .done (fun c hc => ?_) (fun c => ?_) (fun c => ?_) fun c _ => ?_
  · cases hc
  · exact Nat.add_comm _ _
  · exact Nat.le_of_eq (Nat.add_comm _ _)
  · exact Nat.add_comm _ _

/-- What is in hand goes to an attempt that has nothing. -/
theorem Books.give (h : Books hand debt p) (ha : p.attempts[a]? = some x)
    (hx : x.phase.hand = .nothing) (phase : AttemptPhase) (hp : phase.hand = hand)
    (home : ∀ c, hand.connection? = some c → ∃ k, p.home? c = some k ∧ x.pool = some k) :
    Books .nothing debt (p.setPhase a phase) := by
  refine h.changePhase ha phase (hp ▸ home) (fun c => ?_) (fun c => ?_) fun c _ => ?_ <;>
    simp [hp, hx]

/-- An attempt that has nothing goes on with nothing. -/
theorem Books.goOn (h : Books .nothing debt p) (ha : p.attempts[a]? = some x)
    (hx : x.phase.hand = .nothing) (phase : AttemptPhase) (hp : phase.hand = .nothing) :
    Books .nothing debt (p.setPhase a phase) :=
  h.give ha hx phase hp fun c hc => by cases hc

/-- Somebody who looks at the phase alone sees no calls. -/
theorem Books.goOn_quiet {q : Pool} (h : Books .nothing debt p) (ha : p.attempts[a]? = some x)
    (hx : x.phase.hand = .nothing) (phase : AttemptPhase) (hp : phase.hand = .nothing)
    (heq : q.hushed = p.hushed) : Books .nothing debt (q.setPhase a phase) :=
  (h.goOn ha hx phase hp).quiet (by rw [hushed_setPhase, hushed_setPhase, heq])

/-- An attempt is the same behind any number of calls. -/
theorem attempt_of_hushed {q : Pool} (heq : q.hushed.attempts = p.hushed.attempts)
    (ha : p.attempts[a]? = some x) :
    ∃ y, q.attempts[a]? = some y ∧ y.phase = x.phase ∧ y.pool = x.pool := by
  have hq : (q.attempts[a]?).map Attempt.hushed = some x.hushed := by
    rw [← List.getElem?_map]
    show q.hushed.attempts[a]? = _
    rw [heq, hushed, List.getElem?_map, ha]
    rfl
  obtain ⟨y, hy, hyx⟩ := Option.map_eq_some_iff.1 hq
  have hphase := congrArg Attempt.phase hyx
  have hpool := congrArg Attempt.pool hyx
  exact ⟨y, hy, hphase, hpool⟩

/-! ### Closing -/

/-- A connection in hand that is not open may be dropped. -/
theorem Books.drop (h : Books (.made c) debt p) (hs : p.state? c ≠ some .opened) :
    Books .nothing debt p :=
  { h with
    owned := fun d => by
      refine (h.owned d).mono (by simp) fun hd => ?_
      have hne : c ≠ d := fun he => hs (he ▸ hd)
      simp [Hand.holdings, hne] }

theorem Books.close (h : Books hand none p) (c : ConnectionId) : Books hand none (p.close c) := by
  unfold Pool.close
  split
  · next s hs =>
    split
    · next hopened => exact (h.closed hs (.inl hopened)).giveRoom
    · exact h
  · exact h

/-- Of the pool without its calls, giving room back changes a counter alone. -/
theorem hushed_giveRoom (p : Pool) (k : PoolId) :
    (p.giveRoom k).hushed = (p.modifyPool k fun x => { x with live := countDown x.live }).hushed :=
  hushed_callOne _ k

theorem sockets_giveRoom (p : Pool) (k : PoolId) : (p.giveRoom k).sockets = p.sockets := by
  have h := congrArg Pool.sockets (hushed_giveRoom p k)
  exact h

theorem attempts_giveRoom (p : Pool) (k : PoolId) :
    (p.giveRoom k).hushed.attempts = p.hushed.attempts := by
  rw [hushed_giveRoom]
  rfl

theorem state?_close_self (p : Pool) (c : ConnectionId) : (p.close c).state? c ≠ some .opened := by
  unfold Pool.close
  split
  · next s hs =>
    split
    · rw [state?, sockets_giveRoom]
      show (p.setState c .closed).state? c ≠ _
      rw [state?_setState_self hs]
      simp
    · next hopened => simpa [state?, hs] using hopened
  · next hs => simp [state?, hs]

theorem attempts_close (p : Pool) (c : ConnectionId) :
    (p.close c).hushed.attempts = p.hushed.attempts := by
  unfold Pool.close
  split
  · split
    · exact attempts_giveRoom _ _
    · rfl
  · rfl

/-- Closing opens nothing. -/
theorem state?_close (p : Pool) (c d : ConnectionId) (h : (p.close c).state? d = some .opened) :
    p.state? d = some .opened := by
  by_cases hcd : c = d
  · subst hcd
    exact absurd h (state?_close_self p c)
  · unfold Pool.close at h
    split at h
    · split at h
      · rw [state?, sockets_giveRoom] at h
        rw [← state?_setState_of_ne hcd .closed]
        exact h
      · exact h
    · exact h

/-! ### Steps of an attempt -/

theorem openings_of_attempt (ha : p.attempts[a]? = some x) (hx : x.phase = .connecting c) :
    0 < p.openings c := by
  refine Nat.add_pos_left (List.countP_pos_iff.2 ⟨x, List.mem_of_getElem? ha, ?_⟩) _
  simp [hx]

/-- A connection that somebody is connecting is in that state. -/
theorem Books.state?_of_openings (h : Sound p) (hc : 0 < p.openings c) :
    p.state? c = some .connecting := by
  have howned := (h.owned c).openings_eq
  by_contra hne
  rw [if_neg hne] at howned
  exact absurd (Nat.le_of_eq howned) (Nat.not_le.2 (Nat.lt_of_lt_of_le hc (Nat.le_add_right _ _)))

/-- Who is noted as busy does not enter the books. -/
theorem Books.note (h : Books hand debt p) (k : PoolId) (f : AddressPool → AddressPool)
    (live : ∀ x, (f x).live = x.live) (idle : ∀ x, (f x).idle = x.idle) :
    Books hand debt (p.modifyPool k f) := by
  cases hk : p.pools[k]? with
  | none =>
    rw [modifyPool_of_none hk]
    exact h
  | some x =>
    refine h.changePool hk f (live x) (fun c hc => .inl (idle x ▸ hc)) (fun _ => rfl)
      (fun c => ?_) fun c _ => ?_
    · exact Nat.le_of_eq (by rw [idle])
    · rw [idle]

/-- A connection in hand is leased. -/
theorem Books.lease (h : Books (.made c) none p) (ha : p.attempts[a]? = some x)
    (hx : x.phase.hand = .nothing) (hk : x.pool = some k) (hc : p.home? c = some k) :
    Sound (p.lease a k c) := by
  have hbusy : Books (.made c) none (p.modifyPool k fun x => { x with busy := x.busy ++ [c] }) :=
    h.note k _ (fun _ => rfl) fun _ => rfl
  have hgiven := hbusy.give ha hx (.leased c) rfl fun d hd => by
    obtain rfl : c = d := by simpa [Hand.connection?] using hd
    exact ⟨k, hc, hk⟩
  exact hgiven.quiet (by simp [Pool.lease, hushed_setPhase])

/-- A connection in hand becomes idle. -/
theorem Books.putIdle (h : Books (.made c) debt p) (hc : p.home? c = some k) :
    Books .nothing debt (p.modifyPool k fun x => { x with idle := x.idle ++ [c] }) := by
  obtain ⟨x, hk⟩ := h.house hc
  have hcount (d : ConnectionId) : (x.idle ++ [c]).count d + Hand.nothing.holdings d =
      x.idle.count d + (Hand.made c).holdings d := by
    simp [List.count_append, List.count_singleton, Hand.holdings]
  refine h.changePool hk _ rfl (fun d hd => ?_) (fun _ => rfl) (fun d => ?_) fun d _ => hcount d
  · obtain hd | hd := List.mem_append.1 hd
    · exact .inl hd
    · rw [List.mem_singleton.1 hd]
      exact .inr hc
  · exact Nat.le_of_eq (hcount d)

/-- An idle connection is taken in hand. -/
theorem Books.takeIdle (h : Sound p) {y : AddressPool} (hk : p.pools[k]? = some y)
    (hc : c ∈ y.idle) :
    Books (.made c) none (p.modifyPool k fun x => { x with idle := x.idle.erase c }) := by
  have hcount (d : ConnectionId) : (y.idle.erase c).count d + (Hand.made c).holdings d =
      y.idle.count d + Hand.nothing.holdings d := by
    have := List.count_pos_iff.2 hc
    by_cases hcd : c = d
    · subst hcd
      simp only [Hand.holdings, List.count_erase_self]
      simp
      omega
    · simp [Hand.holdings, hcd, List.count_erase_of_ne (Ne.symm hcd)]
  refine h.changePool hk _ rfl (fun d hd => ?_) (fun _ => rfl) (fun d => ?_) fun d _ => hcount d
  · exact .inl (List.mem_of_mem_erase hd)
  · exact Nat.le_of_eq (hcount d)

theorem Books.takeStep (h : Sound p) (ha : p.attempts[a]? = some x)
    (hx : x.phase.hand = .nothing) (hk : x.pool = some k) (c : ConnectionId) :
    Sound (p.take a k c) := by
  unfold Pool.take
  split
  · exact h
  · next y hy =>
    split
    · next hc =>
      have hmem : c ∈ y.idle := by simpa using hc
      have htaken := h.takeIdle hy hmem
      have hhome := h.idleHome k y hy c hmem
      dsimp only
      split
      · exact htaken.lease ha hx hk hhome
      · exact (htaken.close c).drop (state?_close_self _ c)
    · exact h

theorem Books.claimStep (h : Sound p) (ha : p.attempts[a]? = some x)
    (hx : x.phase.hand = .nothing) (hk : x.pool = some k) : Sound (p.claim a k) := by
  unfold Pool.claim
  split
  · next hroom =>
    obtain ⟨hbegun, hhome⟩ := h.begin hroom
    refine hbegun.give ha hx _ rfl fun d hd => ?_
    obtain rfl : (p.begin k).1 = d := by simpa [Hand.connection?] using hd
    exact ⟨k, hhome, hk⟩
  · exact h.goOn ha hx _ rfl

/-- An attempt that connects is connecting a connection of its address pool. -/
theorem Books.attempt_home (h : Books hand debt p) (ha : p.attempts[a]? = some x)
    (hk : x.pool = some k) (hc : x.phase.hand.connection? = some c) :
    ∃ s, p.sockets[c]? = some s ∧ s.pool = k := by
  obtain ⟨j, hj, hx⟩ := h.attemptHome x (List.mem_of_getElem? ha) c hc
  obtain ⟨s, hs, rfl⟩ := Option.map_eq_some_iff.1 hj
  exact ⟨s, hs, Option.some.inj (hx.symm.trans hk)⟩

theorem Books.connectedStep (h : Sound p) (ha : p.attempts[a]? = some x)
    (hx : x.phase = .connecting c) (hk : x.pool = some k) :
    Sound ((p.setState c .opened).lease a k c) := by
  obtain ⟨s, hs, hpool⟩ := h.attempt_home ha hk (c := c) (by rw [hx]; rfl)
  have htaken := h.take ha
  rw [hx] at htaken
  have hmade := (htaken.settle hs).1
  have hhome : (p.setState c .opened).home? c = some k := by
    rw [home?_setState, home?, hs, ← hpool]
    rfl
  refine (hmade.lease (attempts_setPhase ha .done) rfl hk hhome).quiet ?_
  simp only [Pool.lease, hushed_setPhase, hushed_hangUp]
  rw [← hushed_setPhase, ← hushed_setPhase]
  exact congrArg hushed (setPhase_setPhase _ a .done (.leased c)).symm

theorem Books.refuseStep (h : Sound p) (ha : p.attempts[a]? = some x)
    (hx : x.phase = .connecting c) (hk : x.pool = some k) (e : TransportError) :
    Sound (p.refuse a k c e) := by
  obtain ⟨s, hs, rfl⟩ := h.attempt_home ha hk (c := c) (by rw [hx]; rfl)
  have htaken := h.take ha
  rw [hx] at htaken
  have hfreed := (htaken.refuse hs).giveRoom
  obtain ⟨y, hy, hphase, _⟩ := attempt_of_hushed (attempts_giveRoom _ s.pool)
    (attempts_setPhase (p := p.setState c .refused) ha .done)
  refine (hfreed.goOn hy (by rw [hphase]; rfl) (.failed e) rfl).quiet ?_
  simp only [Pool.refuse, hushed_setPhase, hushed_hangUp, hushed_giveRoom]
  rw [← hushed_setPhase, ← hushed_setPhase]
  exact congrArg hushed (setPhase_setPhase _ a .done (.failed e)).symm

/-- The connection of an attempt is closed, or given to the idle ones. -/
theorem Books.releaseStep (h : Sound p) (ha : p.attempts[a]? = some x)
    (hx : x.phase = .leased c) (hk : x.pool = some k) : Sound (p.release a k c) := by
  obtain ⟨s, hs, hpool⟩ := h.attempt_home ha hk (c := c) (by rw [hx]; rfl)
  have hnoted : Sound (p.modifyPool k fun x => { x with busy := x.busy.erase c }) :=
    h.note k _ (fun _ => rfl) fun _ => rfl
  unfold Pool.release
  dsimp only
  split
  · obtain ⟨y, hy, hphase, _⟩ := attempt_of_hushed (attempts_close (p.modifyPool k fun x =>
      { x with busy := x.busy.erase c }) c) ha
    rw [hx] at hphase
    have hclosed := hnoted.close c
    have hdone : Sound (((p.modifyPool k fun x => { x with busy := x.busy.erase c }).close c).setPhase
        a .done) := by
      refine hclosed.changePhase hy .done (fun d hd => by cases hd)
        (fun d => by rw [hphase]; rfl) (fun d => Nat.zero_le _) fun d hd => ?_
      have hne : c ≠ d := by
        rintro rfl
        exact state?_close_self _ c hd
      rw [hphase]
      show 0 + 0 = (Hand.made c).holdings d + 0
      simp [Hand.holdings, hne]
    exact hdone.quiet (by simp only [hushed_setPhase, hushed_callOne])
  · have htaken := hnoted.take ha
    rw [hx] at htaken
    have hidle := htaken.putIdle (k := k) (Option.map_eq_some_iff.2 ⟨s, hs, hpool⟩)
    refine hidle.quiet ?_
    rw [hushed_setPhase, hushed_callOne, ← hushed_setPhase]
    rfl

/-- Whoever goes away while connecting leaves the connection behind. -/
theorem Books.loseStep (h : Sound p) (ha : p.attempts[a]? = some x)
    (hx : x.phase = .connecting c) (hk : x.pool = some k) :
    Sound (((p.setState c .lost).hangUp a).setPhase a .done) := by
  obtain ⟨s, hs, _⟩ := h.attempt_home ha hk (c := c) (by rw [hx]; rfl)
  have htaken := h.take ha
  rw [hx] at htaken
  refine (htaken.lose hs).quiet ?_
  rw [hushed_setPhase, hushed_hangUp, ← hushed_setPhase]
  rfl

theorem Books.listenStep (h : Sound p) (ha : p.attempts[a]? = some x)
    (hx : x.phase.hand = .nothing) : Sound (p.listen a k) := by
  unfold Pool.listen
  dsimp only
  split
  · exact h.goOn_quiet ha hx _ rfl (by simp)
  · exact h.goOn_quiet ha hx _ rfl (by simp)

/-- **A step of an attempt leaves the books in order.** -/
theorem Books.attemptStep (h : Sound p) (ha : p.attempts[a]? = some x) (hk : x.pool = some k)
    (action : Action) : Sound (p.stepAttempt a k x.phase x.ear x.address action) := by
  refine stepAttempt_of (P := Sound) h ?listen ?take ?goOn ?claim ?connected ?refuse ?lose ?wake
    ?fail ?quit ?release
  case listen =>
    intro hx
    exact h.listenStep ha (by rw [hx]; rfl)
  case take =>
    intro c hx
    exact h.takeStep ha (by rw [hx]; rfl) hk c
  case goOn =>
    intro _ _ _ hx
    exact h.goOn ha (by rw [hx]; rfl) _ rfl
  case claim =>
    intro hx
    exact h.claimStep ha (by rw [hx]; rfl) hk
  case connected =>
    intro c hx
    exact h.connectedStep ha hx hk
  case refuse =>
    intro c e hx
    exact h.refuseStep ha hx hk e
  case lose =>
    intro _ c _ hx
    exact h.loseStep ha hx hk
  case wake =>
    intro _ hx
    exact h.goOn_quiet ha (by rw [hx]; rfl) _ rfl (by simp)
  case fail =>
    intro e hx
    exact h.goOn_quiet ha (by rw [hx]; rfl) _ rfl (by simp)
  case quit =>
    intro hx
    exact h.goOn_quiet ha (by rw [hx]; rfl) _ rfl (by simp)
  case release =>
    intro c hx
    exact h.releaseStep ha hx hk

/-! ### Background openings -/

variable {w : WarmUpId} {y : WarmUp}

theorem openings_of_warmUp (hw : p.warmUps[w]? = some y) (hy : y.connecting = some c) :
    0 < p.openings c := by
  refine Nat.add_pos_right _ (List.countP_pos_iff.2 ⟨y, List.mem_of_getElem? hw, ?_⟩)
  simp [hy]

theorem Books.warmStep (h : Sound p) (hw : p.warmUps[w]? = some y) : Sound (p.warm w y) := by
  unfold Pool.warm
  split
  · next pool left hk hnone hleft =>
    split
    · refine h.changeWarmUp hw _ (fun c hc => ?_) (fun _ => rfl) fun _ => rfl
      exact h.warmHome y (List.mem_of_getElem? hw) c hc
    · next hgo =>
      have hroom : p.hasRoom y.pool = true := by
        simp only [Bool.or_eq_true, not_or, Bool.not_eq_true', Bool.not_eq_false] at hgo
        exact hgo.2
      obtain ⟨hbegun, hhome⟩ := h.begin hroom
      refine hbegun.changeWarmUp (w := w) (x := y) hw _ (fun c hc => ?_) (fun c => ?_) fun _ => rfl
      · obtain rfl : (p.begin y.pool).1 = c := Option.some.inj hc
        exact hhome
      · by_cases hc : p.sockets.length = c <;> simp [Pool.begin, hnone, Hand.openings, hc]
  · exact h

/-- The connection of a background opening is in hand once the opening is at rest. -/
theorem Books.takeWarm (h : Books .nothing debt p) (hw : p.warmUps[w]? = some y)
    (hc : y.connecting = some c) (left : Nat) :
    Books (.connecting c) debt (p.setWarmUp w { y with left := left, connecting := none }) := by
  refine h.changeWarmUp hw _ (fun d hd => by cases hd) (fun d => ?_) fun _ => rfl
  by_cases hcd : c = d <;> simp [hc, Hand.openings, hcd]

/-- A background opening connects a connection of its address pool. -/
theorem Books.warm_home (h : Books hand debt p) (hw : p.warmUps[w]? = some y)
    (hc : y.connecting = some c) : ∃ s, p.sockets[c]? = some s ∧ s.pool = y.pool :=
  Option.map_eq_some_iff.1 (h.warmHome y (List.mem_of_getElem? hw) c hc)

theorem hushed_setWarmUp (p : Pool) (w : WarmUpId) (y : WarmUp) :
    (p.setWarmUp w y).hushed = p.hushed.setWarmUp w y := rfl

theorem Books.warmConnectedStep (h : Sound p) (hw : p.warmUps[w]? = some y) :
    Sound (p.warmConnected w y) := by
  unfold Pool.warmConnected
  split
  · next c hc =>
    obtain ⟨s, hs, hpool⟩ := h.warm_home hw hc
    have hmade := ((h.takeWarm hw hc y.left).settle hs).1
    have hhome : (p.setState c .opened).home? c = some y.pool := by
      rw [home?_setState]
      exact Option.map_eq_some_iff.2 ⟨s, hs, hpool⟩
    refine (hmade.putIdle hhome).quiet ?_
    simp only [hushed_setWarmUp, hushed_callOne]
    rfl
  · exact h

theorem Books.warmRefusedStep (h : Sound p) (hw : p.warmUps[w]? = some y) :
    Sound (p.warmRefused w y) := by
  unfold Pool.warmRefused
  split
  · next c hc =>
    obtain ⟨s, hs, hpool⟩ := h.warm_home hw hc
    have hfreed := ((h.takeWarm hw hc 0).refuse hs).giveRoom
    refine hfreed.quiet ?_
    rw [hushed_setWarmUp, hushed_giveRoom, hushed_giveRoom, hpool]
    rfl
  · exact h

/-! ### Connections by themselves -/

/-- How much a connection has queued does not enter the books. -/
theorem Books.queue (h : Books hand debt p) (c : ConnectionId) (f : Socket → Socket)
    (hpool : ∀ s, (f s).pool = s.pool) (hstate : ∀ s, (f s).state = s.state) :
    Books hand debt (p.modifySocket c f) := by
  have hroom (k : PoolId) : (p.modifySocket c f).roomTaken k = p.roomTaken k := by
    cases hs : p.sockets[c]? with
    | none => rw [modifySocket, List.modify_eq_self (by simpa using hs)]
    | some s =>
      have := countP_modify hs f fun s => s.pool = k && s.takesRoom
      simp only [hpool, Socket.takesRoom, hstate] at this
      exact Nat.add_right_cancel this
  have hstates (d : ConnectionId) : (p.modifySocket c f).state? d = p.state? d := by
    simp only [state?, modifySocket, List.getElem?_modify]
    cases p.sockets[d]? with
    | none => rfl
    | some s => by_cases hcd : c = d <;> simp [hcd, hstate]
  have hhomes (d : ConnectionId) : (p.modifySocket c f).home? d = p.home? d := by
    simp only [home?, modifySocket, List.getElem?_modify]
    cases p.sockets[d]? with
    | none => rfl
    | some s => by_cases hcd : c = d <;> simp [hcd, hpool]
  refine ⟨fun k x hk => ?_, h.bounded, fun d => ?_, fun k x hk d hd => ?_, fun x hx d hd => ?_,
    fun x hx d hd => ?_, fun s hs => ?_⟩
  · rw [hroom]
    exact h.balanced k x hk
  · rw [hstates]
    exact h.owned d
  · rw [hhomes]
    exact h.idleHome k x hk d hd
  · rw [hhomes]
    exact h.attemptHome x hx d hd
  · rw [hhomes]
    exact h.warmHome x hx d hd
  · obtain ⟨d, hd⟩ := List.getElem?_of_mem hs
    have hpools : (p.sockets[d]?).map Socket.pool = some s.pool := by
      have := hhomes d
      rw [home?, hd] at this
      exact this.symm
    obtain ⟨t, ht, heq⟩ := Option.map_eq_some_iff.1 hpools
    rw [← heq]
    exact h.housed t (List.mem_of_getElem? ht)

/-! ### The whole pool -/

/-- Some other settings of a pool have nothing to do with its books. -/
theorem Books.elsewhere (h : Books hand debt p) (current : Dict PoolId) (shutDown : Bool) :
    Books hand debt { p with current := current, shutDown := shutDown } :=
  ⟨h.balanced, h.bounded, h.owned, h.idleHome, h.attemptHome, h.warmHome, h.housed⟩

/-- Idle connections that are not open may be forgotten. -/
theorem Books.forget (h : Sound p) {x : AddressPool} (hk : p.pools[k]? = some x)
    (f : AddressPool → AddressPool) (live : (f x).live = x.live)
    (idle : (f x).idle.Sublist x.idle)
    (opened : ∀ c, p.state? c = some .opened → (f x).idle.count c = x.idle.count c) :
    Sound (p.modifyPool k f) :=
  h.changePool hk f live (fun _ hc => .inl (idle.subset hc)) (fun _ => rfl)
    (fun c => Nat.add_le_add_right (idle.count_le c) _) fun c hc => by rw [opened c hc]

theorem Books.dropClosedIdle (h : Sound p) : Sound p.dropClosedIdle := by
  unfold Pool.dropClosedIdle
  generalize p.current.values = ks
  induction ks generalizing p with
  | nil => exact h
  | cons k rest ih =>
    refine ih ?_
    show Sound (p.modifyPool k _)
    cases hk : p.pools[k]? with
    | none =>
      rw [modifyPool_of_none hk]
      exact h
    | some x =>
      refine h.forget hk _ rfl List.filter_sublist fun c hc => ?_
      refine List.count_filter ?_
      simp only [state?] at hc
      obtain ⟨s, hs, hst⟩ := Option.map_eq_some_iff.1 hc
      simp [socketClosed, hs, Socket.isClosed, hst]

theorem Books.prune (h : Sound p) : Sound p.prune :=
  h.dropClosedIdle.elsewhere _ p.dropClosedIdle.shutDown

theorem Books.poolFor (h : Sound p) (address : String) : Sound (p.poolFor address).2 := by
  unfold Pool.poolFor
  split
  · exact h
  · exact h.prune.create address

theorem Books.arriveStep (h : Sound p) (address : String) : Sound (p.arrive address) := by
  unfold Pool.arrive
  split
  · exact h.arrive _ rfl
  · exact (h.poolFor address).arrive _ rfl

/-! ### The end -/

theorem Books.closeEach (h : Sound p) (cs : List ConnectionId) : Sound (cs.foldl Pool.close p) := by
  induction cs generalizing p with
  | nil => exact h
  | cons c rest ih => exact ih (h.close c)

/-- Closing opens nothing, and what was closed is not open. -/
theorem state?_closeEach (cs : List ConnectionId) {d : ConnectionId}
    (hd : (cs.foldl Pool.close p).state? d = some .opened) :
    p.state? d = some .opened ∧ d ∉ cs := by
  induction cs generalizing p with
  | nil => exact ⟨hd, by simp⟩
  | cons c rest ih =>
    obtain ⟨hopened, hrest⟩ := ih hd
    refine ⟨state?_close p c d hopened, ?_⟩
    rintro (_ | ⟨_, hmem⟩)
    · exact state?_close_self p _ hopened
    · exact hrest hmem

/-- Closing leaves a connection among the idle ones. -/
theorem pools_close (p : Pool) (c : ConnectionId) (k : PoolId) :
    ((p.close c).pools[k]?).map AddressPool.idle = (p.pools[k]?).map AddressPool.idle := by
  have hidle (q : Pool) : (q.pools[k]?).map AddressPool.idle =
      (q.hushed.pools[k]?).map AddressPool.idle := by
    rw [pools_hushed, Option.map_map]
    rfl
  unfold Pool.close
  split
  · split
    · next s hs hopened =>
      rw [hidle, hushed_giveRoom, ← hidle]
      simp only [modifyPool, List.getElem?_modify]
      show ((p.pools[k]?).map _).map _ = _
      rw [Option.map_map]
      cases p.pools[k]? with
      | none => rfl
      | some x => by_cases hk : s.pool = k <;> simp [hk]
    · rfl
  · rfl

theorem pools_closeEach (cs : List ConnectionId) (p : Pool) (k : PoolId) :
    ((cs.foldl Pool.close p).pools[k]?).map AddressPool.idle =
      (p.pools[k]?).map AddressPool.idle := by
  induction cs generalizing p with
  | nil => rfl
  | cons c rest ih => exact (ih (p.close c)).trans (pools_close p c k)

theorem Books.closeAll (h : Sound p) (k : PoolId) : Sound (p.closeAll k) := by
  unfold Pool.closeAll
  split
  · exact h
  · next x hk =>
    have hclosed := h.closeEach (x.idle ++ x.busy)
    have hidle := pools_closeEach (x.idle ++ x.busy) p k
    rw [hk] at hidle
    obtain ⟨y, hy, hyx⟩ := Option.map_eq_some_iff.1 hidle
    refine (hclosed.forget hy (fun x => { x with idle := [], busy := [] }) rfl
      (List.nil_sublist _) fun c hc => ?_).quiet (hushed_callAll _ k)
    have hnot := (state?_closeEach _ hc).2
    rw [hyx]
    exact (List.count_eq_zero.2 fun hmem => hnot (List.mem_append_left _ hmem)).symm

theorem Books.beginShutDown (h : Sound p) : Sound p.beginShutDown := by
  unfold Pool.beginShutDown
  split
  · exact h
  · have hflag := h.elsewhere p.current true
    generalize p.current.values = ks
    generalize ({ p with shutDown := true } : Pool) = q at hflag ⊢
    induction ks generalizing q with
    | nil => exact hflag
    | cons k rest ih => exact ih (q.closeAll k) (hflag.closeAll k)

/-! ### Steps and runs -/

/-- **A step leaves the books in order.** -/
theorem Books.step (h : Sound p) (action : Action) : Sound (p.step action) := by
  cases action with
  | arrive address => exact h.arriveStep address
  | listen a | take a _ | noneIdle a | claim a | connected a | refused a _ | wake a | timeOut a
  | release a | abandon a =>
    exact onAttempt_of (P := Sound) h fun x k ha hk => h.attemptStep ha hk _
  | queue c =>
    refine onSocket_of (P := Sound) h fun s hs => ?_
    split
    · exact h.queue c _ (fun _ => rfl) fun _ => rfl
    · exact h
  | write c => exact h.queue c _ (fun _ => rfl) fun _ => rfl
  | mark c =>
    refine onSocket_of (P := Sound) h fun s hs => ?_
    split
    · next hopened => exact h.mark hs hopened
    · exact h
  | free c =>
    refine onSocket_of (P := Sound) h fun s hs => ?_
    split
    · next hclosing => exact (h.closed hs (.inr hclosing)).giveRoom
    · exact h
  | warm w => exact onWarmUp_of (P := Sound) h fun y hw => h.warmStep hw
  | warmConnected w => exact onWarmUp_of (P := Sound) h fun y hw => h.warmConnectedStep hw
  | warmRefused w => exact onWarmUp_of (P := Sound) h fun y hw => h.warmRefusedStep hw
  | shutDown => exact h.beginShutDown
  | prune => exact h.prune

/-- The books of a pool without addresses are in order. -/
theorem sound_empty (config : PoolConfig) : Sound { config := config } :=
  ⟨fun k x hk => by simp at hk, fun k x hk => by simp at hk, fun c => ⟨rfl, rfl⟩,
    fun k x hk => by simp at hk, fun x hx => by simp at hx, fun x hx => by simp at hx,
    fun s hs => by simp at hs⟩

/-- **The books are in order after every run.** -/
theorem Books.run (h : Sound p) (actions : List Action) : Sound (p.run actions) := by
  induction actions generalizing p with
  | nil => exact h
  | cons action rest ih => exact ih (h.step action)

end RemoteCall.Transport.Pool
