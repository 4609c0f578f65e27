import RemoteCall.Proofs.Pool.Ceiling
import RemoteCall.Proofs.Pool.Growth

/-! What is left of a pool of connections once it is shut down.

Shutting down closes what is idle or leased, and looks at the address pools in use only; that
is enough, since no other has an open connection (`not_idle_of_beginShutDown`). Afterwards
nothing becomes idle any more and nobody new begins to connect (`Ebbs`), but for one thing: a
background opening that was connecting puts its connection among the idle ones when it is made,
without another look at whether the pool is shut down. So these connections are all that can
stay open (`shutDown_leaves`), and one such does (`opening_outlives_shutDown`). -/
namespace RemoteCall.Transport

/-- Whether an attempt is past its look at whether the pool is shut down, and not at its end. -/
def AttemptPhase.works : AttemptPhase → Bool
  | looking | claiming | connecting _ | leased _ => true
  | arrived | waiting | done | failed _ => false

namespace Pool

variable {p q : Pool} {a : AttemptId} {x : Attempt} {k : PoolId} {c : ConnectionId}

/-- Whether a background opening is connecting a connection. -/
def Opens (p : Pool) (c : ConnectionId) : Prop := ∃ y ∈ p.warmUps, y.connecting = some c

/-- Whether an attempt may still come to a connection, or has one. -/
def Works (p : Pool) : Prop := ∃ x ∈ p.attempts, x.phase.works = true

/-! ### After the end nothing starts -/

/-- From `p` to `q` nothing becomes idle but what a background opening was connecting, and
neither an opening nor an attempt begins to work. -/
structure Ebbs (p q : Pool) : Prop where
  shutDown : q.shutDown = p.shutDown
  idle : ∀ c, q.idleTimes c ≤ p.idleTimes c ∨ p.Opens c
  opens : ∀ c, q.Opens c → p.Opens c
  works : q.Works → p.Works

theorem works_hushed (p : Pool) : p.hushed.Works ↔ p.Works := by
  simp only [Works, hushed, List.mem_map, exists_exists_and_eq_and]
  rfl

theorem idleTimes_modifyPool_le (p : Pool) (k : PoolId) (f : AddressPool → AddressPool)
    (hcount : ∀ x : AddressPool, (f x).idle.count c ≤ x.idle.count c) :
    (p.modifyPool k f).idleTimes c ≤ p.idleTimes c := by
  cases hk : p.pools[k]? with
  | none => exact Nat.le_of_eq (congrArg (idleTimes · c) (modifyPool_of_none hk f))
  | some x =>
    have hmoved := idleTimes_modifyPool hk f c
    have hle := hcount x
    omega

theorem works_of_attempt (ha : p.attempts[a]? = some x) (hx : x.phase.works = true) : p.Works :=
  ⟨x, List.mem_of_getElem? ha, hx⟩

namespace Ebbs

theorem refl (p : Pool) : Ebbs p p := ⟨rfl, fun _ => .inl (Nat.le_refl _), fun _ => id, id⟩

theorem trans (h : Ebbs p q) {r : Pool} (h' : Ebbs q r) : Ebbs p r := by
  refine ⟨h'.shutDown.trans h.shutDown, fun c => ?_, fun c => h.opens c ∘ h'.opens c,
    h.works ∘ h'.works⟩
  obtain hle | hopens := h'.idle c
  · exact (h.idle c).imp_left (Nat.le_trans hle)
  · exact .inr (h.opens c hopens)

/-- Calls are no work. -/
theorem quiet (h : Ebbs p q) {r : Pool} (heq : r.hushed = q.hushed) : Ebbs p r := by
  have hshut : r.shutDown = q.shutDown := congrArg (fun p => p.shutDown) heq
  have hwarmUps : r.warmUps = q.warmUps := congrArg (fun p => p.warmUps) heq
  refine ⟨hshut.trans h.shutDown, fun c => ?_, fun c hc => h.opens c ?_, fun hr => h.works ?_⟩
  · rw [← idleTimes_hushed, heq, idleTimes_hushed]
    exact h.idle c
  · rwa [Opens, ← hwarmUps]
  · rwa [← works_hushed, ← heq, works_hushed]

theorem modifyPool (h : Ebbs p q) (k : PoolId) (f : AddressPool → AddressPool)
    (hidle : ∀ x, (f x).idle.Sublist x.idle) : Ebbs p (q.modifyPool k f) := by
  refine ⟨h.shutDown, fun c => ?_, h.opens, h.works⟩
  exact (h.idle c).imp_left (Nat.le_trans
    (idleTimes_modifyPool_le q k f fun x => (hidle x).count_le c))

/-- An attempt goes on; only one that was at work is at work. -/
theorem setPhase (h : Ebbs p q) (a : AttemptId) (phase : AttemptPhase)
    (hworks : phase.works = true → p.Works) : Ebbs p (q.setPhase a phase) := by
  refine ⟨h.shutDown, h.idle, h.opens, ?_⟩
  rintro ⟨x, hx, hphase⟩
  obtain ⟨i, hi⟩ := List.getElem?_of_mem hx
  rw [Pool.setPhase, modifyAttempt, List.getElem?_modify] at hi
  obtain ⟨y, hy, rfl⟩ := Option.map_eq_some_iff.1 hi
  split at hphase
  · exact hworks hphase
  · exact h.works (works_of_attempt hy hphase)

/-- An attempt rests or ends. -/
theorem rest (h : Ebbs p q) (a : AttemptId) {phase : AttemptPhase} (hphase : phase.works = false) :
    Ebbs p (q.setPhase a phase) :=
  h.setPhase a phase fun hworks => absurd (hphase.symm.trans hworks) Bool.false_ne_true

theorem modifySocket (h : Ebbs p q) (c : ConnectionId) (f : Socket → Socket) :
    Ebbs p (q.modifySocket c f) := ⟨h.shutDown, h.idle, h.opens, h.works⟩

theorem setState (h : Ebbs p q) (c : ConnectionId) (state : SocketState) :
    Ebbs p (q.setState c state) := h.modifySocket c _

theorem giveRoom (h : Ebbs p q) (k : PoolId) : Ebbs p (q.giveRoom k) :=
  (h.modifyPool k (fun x => { x with live := countDown x.live })
    fun _ => List.Sublist.refl _).quiet (hushed_giveRoom q k)

theorem begin (h : Ebbs p q) (k : PoolId) : Ebbs p (q.begin k).2 := by
  have htaken := h.modifyPool k (fun x => { x with live := x.live + 1 })
    fun _ => List.Sublist.refl _
  exact ⟨htaken.shutDown, htaken.idle, htaken.opens, htaken.works⟩

theorem close (h : Ebbs p q) (c : ConnectionId) : Ebbs p (q.close c) := by
  unfold Pool.close
  split
  · split
    · exact (h.setState c .closed).giveRoom _
    · exact h
  · exact h

theorem closeAll (h : Ebbs p q) (k : PoolId) : Ebbs p (q.closeAll k) := by
  have closeEach (cs : List ConnectionId) (r : Pool) (hr : Ebbs p r) :
      Ebbs p (cs.foldl Pool.close r) := by
    induction cs generalizing r with
    | nil => exact hr
    | cons c rest ih => exact ih _ (hr.close c)
  unfold Pool.closeAll
  split
  · exact h
  · exact ((closeEach _ _ h).modifyPool k (fun x => { x with idle := [], busy := [] })
      fun _ => List.nil_sublist _).quiet (hushed_callAll _ k)

theorem closeEach (h : Ebbs p q) (ks : List PoolId) : Ebbs p (ks.foldl Pool.closeAll q) := by
  induction ks generalizing q with
  | nil => exact h
  | cons k rest ih => exact ih (h.closeAll k)

/-- A background opening connects nothing new. -/
theorem setWarmUp (h : Ebbs p q) (w : WarmUpId) {y : WarmUp}
    (hy : ∀ c, y.connecting = some c → p.Opens c) : Ebbs p (q.setWarmUp w y) := by
  refine ⟨h.shutDown, h.idle, fun c => ?_, h.works⟩
  rintro ⟨z, hz, hc⟩
  obtain hz | rfl := List.mem_or_eq_of_mem_set hz
  · exact h.opens c ⟨z, hz, hc⟩
  · exact hy c hc

/-! ### Steps of attempts -/

theorem lease (h : Ebbs p q) (hworks : p.Works) (a : AttemptId) (k : PoolId)
    (c : ConnectionId) : Ebbs p (q.lease a k c) :=
  ((h.modifyPool k (fun x => { x with busy := x.busy ++ [c] })
    fun _ => List.Sublist.refl _).quiet (hushed_hangUp _ a)).setPhase a _ fun _ => hworks

theorem take (hworks : p.Works) (a : AttemptId) (k : PoolId) (c : ConnectionId) :
    Ebbs p (p.take a k c) := by
  unfold Pool.take
  split
  · exact refl p
  · split
    · have htaken := (refl p).modifyPool k (fun x => { x with idle := x.idle.erase c })
        fun _ => List.erase_sublist
      dsimp only
      split
      · exact htaken.lease hworks a k c
      · exact htaken.close c
    · exact refl p

theorem claim (hworks : p.Works) (a : AttemptId) (k : PoolId) : Ebbs p (p.claim a k) := by
  unfold Pool.claim
  split
  · exact ((refl p).begin k).setPhase a _ fun _ => hworks
  · exact (refl p).setPhase a _ fun _ => hworks

/-- What comes back after the end is closed. -/
theorem release (hdown : p.shutDown = true) (a : AttemptId) (k : PoolId) (c : ConnectionId) :
    Ebbs p (p.release a k c) := by
  have hnoted := (refl p).modifyPool k (fun x => { x with busy := x.busy.erase c })
    fun _ => List.Sublist.refl _
  unfold Pool.release
  dsimp only
  split
  · exact ((hnoted.close c).quiet (hushed_callOne _ k)).rest a rfl
  · next hkept =>
    refine absurd ?_ hkept
    rw [Bool.or_eq_true]
    exact .inl hdown

/-- Whoever looks whether the pool is shut down goes no further. -/
theorem listen (hdown : p.shutDown = true) (a : AttemptId) (k : PoolId) :
    Ebbs p (p.listen a k) := by
  have hheard := (refl p).quiet (hushed_startListening p a k)
  unfold Pool.listen
  dsimp only
  split
  · exact (hheard.quiet (hushed_hangUp _ a)).rest a rfl
  · next hup => exact absurd (hheard.shutDown.trans hdown) hup

theorem attemptStep (hdown : p.shutDown = true) (ha : p.attempts[a]? = some x)
    (action : Action) : Ebbs p (p.stepAttempt a k x.phase x.ear x.address action) := by
  have works (hx : x.phase.works = true) : p.Works := works_of_attempt ha hx
  have start := refl p
  refine stepAttempt_of (P := Ebbs p) start ?listen ?take ?goOn ?claim ?connected ?refuse ?lose
    ?wake ?fail ?quit ?release
  case listen =>
    intro _
    exact listen hdown a k
  case take =>
    intro c hx
    exact take (works (by rw [hx]; rfl)) a k c
  case goOn =>
    intro _ _ _ hx
    exact start.setPhase a _ fun _ => works (by rw [hx]; rfl)
  case claim =>
    intro hx
    exact claim (works (by rw [hx]; rfl)) a k
  case connected =>
    intro c hx
    exact (start.setState c .opened).lease (works (by rw [hx]; rfl)) a k c
  case refuse =>
    intro c e _
    exact (((start.setState c .refused).giveRoom k).quiet (hushed_hangUp _ a)).rest a rfl
  case lose =>
    intro _ c _ _
    exact ((start.setState c .lost).quiet (hushed_hangUp _ a)).rest a rfl
  case wake =>
    intro _ _
    exact (start.quiet (hushed_setEar p a .off)).rest a rfl
  case fail =>
    intro e _
    exact (start.quiet (hushed_hangUp p a)).rest a rfl
  case quit =>
    intro _
    exact (start.quiet (hushed_hangUp p a)).rest a rfl
  case release =>
    intro c _
    exact release hdown a k c

/-! ### Other steps -/

section WarmUps
variable {w : WarmUpId} {y : WarmUp}

theorem opens_of_warmUp (hw : p.warmUps[w]? = some y) (hc : y.connecting = some c) : p.Opens c :=
  ⟨y, List.mem_of_getElem? hw, hc⟩

/-- A background opening looks before it begins. -/
theorem warm (hdown : p.shutDown = true) (hw : p.warmUps[w]? = some y) : Ebbs p (p.warm w y) := by
  unfold Pool.warm
  split
  · split
    · exact (refl p).setWarmUp w fun c hc => opens_of_warmUp hw hc
    · next hgo =>
      refine absurd ?_ hgo
      rw [hdown]
      rfl
  · exact refl p

/-- It does not look again when its connection is made. -/
theorem warmConnected (hw : p.warmUps[w]? = some y) : Ebbs p (p.warmConnected w y) := by
  unfold Pool.warmConnected
  split
  · next c hc =>
    have hopens := opens_of_warmUp hw hc
    have hmade : Ebbs p ((p.setState c .opened).modifyPool y.pool fun z =>
        { z with idle := z.idle ++ [c] }) := by
      refine ⟨rfl, fun d => ?_, fun _ => id, id⟩
      by_cases hcd : c = d
      · exact .inr (hcd ▸ hopens)
      · refine .inl (idleTimes_modifyPool_le (p.setState c .opened) y.pool _ fun z => ?_)
        have hother : [c].count d = 0 :=
          List.count_eq_zero.2 fun hmem => hcd (List.mem_singleton.1 hmem).symm
        exact Nat.le_of_eq (by rw [List.count_append, hother, Nat.add_zero])
    exact (hmade.quiet (hushed_callOne _ y.pool)).setWarmUp w fun d hd => nomatch hd
  · exact refl p

theorem warmRefused (p : Pool) (w : WarmUpId) (y : WarmUp) : Ebbs p (p.warmRefused w y) := by
  unfold Pool.warmRefused
  split
  · next c _ =>
    exact (((refl p).setState c .refused).giveRoom y.pool).setWarmUp w fun d hd => nomatch hd
  · exact refl p

end WarmUps

theorem prune (p : Pool) : Ebbs p p.prune := by
  suffices hdropped : Ebbs p p.dropClosedIdle from
    ⟨hdropped.shutDown, hdropped.idle, hdropped.opens, hdropped.works⟩
  unfold Pool.dropClosedIdle
  suffices h : ∀ (ks : List PoolId) (q : Pool), Ebbs p q →
      Ebbs p (ks.foldl (fun p k => p.modifyPool k fun x =>
        { x with idle := x.idle.filter fun c => !p.socketClosed c }) q) from h _ p (refl p)
  intro ks
  induction ks with
  | nil => exact fun q h => h
  | cons k rest ih => exact fun q h => ih _ (h.modifyPool k _ fun _ => List.filter_sublist)

/-- Whoever comes after the end is turned away. -/
theorem arrive (hdown : p.shutDown = true) (address : String) : Ebbs p (p.arrive address) := by
  unfold Pool.arrive
  rw [if_pos hdown]
  refine ⟨rfl, fun _ => .inl (Nat.le_refl _), fun _ => id, ?_⟩
  rintro ⟨x, hx, hphase⟩
  obtain hx | hx := List.mem_append.1 hx
  · exact ⟨x, hx, hphase⟩
  · rw [List.mem_singleton.1 hx] at hphase
    cases hphase

/-- **After the end, every step lets the work ebb.** -/
theorem step (hdown : p.shutDown = true) (action : Action) : Ebbs p (p.step action) := by
  have start := refl p
  cases action with
  | arrive address => exact arrive hdown address
  | listen a | take a _ | noneIdle a | claim a | connected a | refused a _ | wake a | timeOut a
  | release a | abandon a =>
    exact onAttempt_of (P := Ebbs p) start fun x k ha _ => attemptStep hdown ha _
  | queue c =>
    refine onSocket_of (P := Ebbs p) start fun s _ => ?_
    split
    · exact start.modifySocket c _
    · exact start
  | write c => exact start.modifySocket c _
  | mark c =>
    refine onSocket_of (P := Ebbs p) start fun s _ => ?_
    split
    · exact start.setState c _
    · exact start
  | free c =>
    refine onSocket_of (P := Ebbs p) start fun s _ => ?_
    split
    · exact (start.setState c _).giveRoom _
    · exact start
  | warm w => exact onWarmUp_of (P := Ebbs p) start fun _ hw => warm hdown hw
  | warmConnected w => exact onWarmUp_of (P := Ebbs p) start fun _ hw => warmConnected hw
  | warmRefused w => exact onWarmUp_of (P := Ebbs p) start fun y _ => warmRefused p w y
  | shutDown =>
    show Ebbs p p.beginShutDown
    rw [beginShutDown, if_pos hdown]
    exact start
  | prune => exact prune p

theorem run (hdown : p.shutDown = true) (actions : List Action) : Ebbs p (p.run actions) := by
  induction actions generalizing p with
  | nil => exact refl p
  | cons action rest ih =>
    have hstep := step hdown action
    exact hstep.trans (ih (hstep.shutDown.trans hdown))

end Ebbs

/-! ### What stays idle -/

theorem exists_mem_idle (hc : 0 < p.idleTimes c) :
    ∃ (k : PoolId) (x : AddressPool), p.pools[k]? = some x ∧ c ∈ x.idle := by
  obtain ⟨x, hx, hmem⟩ := List.mem_flatMap.1 (List.count_pos_iff.1 hc)
  obtain ⟨k, hk⟩ := List.getElem?_of_mem hx
  exact ⟨k, x, hk, hmem⟩

/-- A connection that stays open and idle was open before. -/
theorem Books.opened_of_idle (hp : Sound p) (hgrows : Grows p q) (hidle : 0 < p.idleTimes c)
    (hopened : q.state? c = some .opened) : p.state? c = some .opened := by
  have howned := hp.owned c
  cases hs : p.sockets[c]? with
  | none =>
    simp only [state?, hs, Option.map_none, Owned] at howned
    omega
  | some s =>
    obtain ⟨t, ht, -, hbefore⟩ := hgrows.sockets c s hs
    have hrank := hbefore.rank_le
    have hafter : t.state = .opened := by simpa [state?, ht] using hopened
    simp only [state?, hs, Option.map_some] at howned ⊢
    rw [hafter] at hrank
    generalize s.state = state at howned hrank ⊢
    cases state with
    | opened => rfl
    | closing | closed => exact absurd hrank (by decide)
    | connecting | refused | lost =>
      simp only [Owned] at howned
      omega

/-- How a pool stands after its end, if `left` are the connections that may stay. -/
structure Ended (left : ConnectionId → Prop) (p : Pool) : Prop where
  down : p.shutDown = true
  opens : ∀ c, p.Opens c → left c
  idle : ∀ c, p.state? c = some .opened → 0 < p.idleTimes c → left c

theorem Ended.step {left : ConnectionId → Prop} (h : Ended left p) (hp : Sound p)
    (action : Action) : Ended left (p.step action) := by
  have hebbs := Ebbs.step h.down action
  refine ⟨hebbs.shutDown.trans h.down, fun c hc => h.opens c (hebbs.opens c hc),
    fun c hopened hidle => ?_⟩
  obtain hle | hopens := hebbs.idle c
  · have hbefore := Nat.lt_of_lt_of_le hidle hle
    exact h.idle c (hp.opened_of_idle (Grows.step hp action) hbefore hopened) hbefore
  · exact h.opens c hopens

theorem Ended.run {left : ConnectionId → Prop} (h : Ended left p) (hp : Sound p)
    (actions : List Action) : Ended left (p.run actions) := by
  induction actions generalizing p with
  | nil => exact h
  | cons action rest ih => exact ih (h.step hp action) (hp.step action)

/-! ### The end -/

theorem state?_closeAll (p : Pool) (k : PoolId) (h : (p.closeAll k).state? c = some .opened) :
    p.state? c = some .opened := by
  unfold closeAll at h
  split at h
  · exact h
  · next x _ =>
    have hcalled (q : Pool) : (q.callAll k).state? c = q.state? c := by
      have hsockets := congrArg (fun p => p.sockets) (hushed_callAll q k)
      exact congrArg (fun sockets : List Socket => (sockets[c]?).map Socket.state) hsockets
    dsimp only at h
    rw [hcalled, state?_modifyPool] at h
    exact (state?_closeEach _ h).1

/-- Closing an address pool leaves nothing idle there, and the others as they are. -/
theorem mem_idle_closeAll {j : PoolId} {y : AddressPool}
    (hj : (p.closeAll k).pools[j]? = some y) (hc : c ∈ y.idle) :
    (∃ x, p.pools[j]? = some x ∧ c ∈ x.idle) ∧ j ≠ k := by
  unfold closeAll at hj
  split at hj
  · next hnone =>
    refine ⟨⟨y, hj, hc⟩, ?_⟩
    rintro rfl
    cases hnone.symm.trans hj
  · next x hk =>
    have hcalled := congrArg (fun p => p.pools[j]?) (hushed_callAll
      (((x.idle ++ x.busy).foldl close p).modifyPool k fun x => { x with idle := [], busy := [] }) k)
    rw [pools_hushed, pools_hushed, hj] at hcalled
    obtain ⟨z, hz, hsame⟩ := Option.map_eq_some_iff.1 hcalled.symm
    have hidle : z.idle = y.idle :=
      show z.hushed.idle = y.hushed.idle from congrArg AddressPool.idle hsame
    obtain ⟨z, hz', ⟨_, rfl⟩ | ⟨hne, rfl⟩⟩ := entry_modifyPool hz
    · rw [← hidle] at hc
      cases hc
    · have hclosed := pools_closeEach (x.idle ++ x.busy) p j
      rw [hz'] at hclosed
      obtain ⟨u, hu, hsame⟩ := Option.map_eq_some_iff.1 hclosed.symm
      exact ⟨⟨u, hu, by rw [hsame, hidle]; exact hc⟩, hne.symm⟩

/-- What is open and idle after some address pools were closed was so before, in another. -/
theorem idle_closeAll (ks : List PoolId) {y : AddressPool}
    (hk : (ks.foldl closeAll p).pools[k]? = some y) (hc : c ∈ y.idle)
    (hopened : (ks.foldl closeAll p).state? c = some .opened) :
    (∃ x, p.pools[k]? = some x ∧ c ∈ x.idle) ∧ p.state? c = some .opened ∧ k ∉ ks := by
  induction ks generalizing p with
  | nil => exact ⟨⟨y, hk, hc⟩, hopened, List.not_mem_nil⟩
  | cons j rest ih =>
    obtain ⟨⟨x, hx, hmem⟩, hbefore, hrest⟩ := ih hk hopened
    obtain ⟨hidle, hne⟩ := mem_idle_closeAll hx hmem
    exact ⟨hidle, state?_closeAll p j hbefore, List.not_mem_cons_of_ne_of_not_mem hne hrest⟩

/-- **At the end no open connection is idle.** Only address pools in use are closed, but an open
connection takes room, and so its address pool is in use. -/
theorem not_idle_of_beginShutDown (hp : Sound p) (haddressed : Addressed p)
    (hup : p.shutDown = false) (hopened : p.beginShutDown.state? c = some .opened) :
    p.beginShutDown.idleTimes c = 0 := by
  by_contra hidle
  obtain ⟨k, y, hk, hmem⟩ := exists_mem_idle (Nat.pos_of_ne_zero hidle)
  rw [beginShutDown, if_neg (by rw [hup]; decide)] at hk hopened
  obtain ⟨⟨x, hx, hc⟩, hbefore, hunused⟩ := idle_closeAll _ hk hmem hopened
  obtain ⟨s, hs, hpool⟩ := Option.map_eq_some_iff.1 (hp.idleHome k x hx c hc)
  have hstate : s.state = .opened := by
    obtain ⟨t, ht, hst⟩ := Option.map_eq_some_iff.1 hbefore
    obtain rfl : s = t := Option.some.inj (hs.symm.trans ht)
    exact hst
  have hactive := Steady.active_of_takesRoom hp hs (by simp [Socket.takesRoom, hstate])
  have hfound := haddressed.inUse k x hx (hpool ▸ hactive)
  exact hunused (List.mem_map_of_mem (Dict.mem_of_find? hfound))

theorem ended_beginShutDown (hp : Sound p) (haddressed : Addressed p) (hup : p.shutDown = false) :
    Ended p.Opens p.beginShutDown := by
  have hebbs : Ebbs { p with shutDown := true } p.beginShutDown := by
    rw [beginShutDown, if_neg (by rw [hup]; decide)]
    exact (Ebbs.refl _).closeEach _
  refine ⟨hebbs.shutDown, hebbs.opens, fun c hopened hidle => ?_⟩
  exact absurd (not_idle_of_beginShutDown hp haddressed hup hopened) (Nat.ne_of_gt hidle)

/-! ### What takes room -/

/-- Nobody connects a connection, and nobody has one. -/
def Quiet (p : Pool) : Prop := ∀ c, p.openings c = 0 ∧ p.leases c = 0

theorem quiet_of_not_works (hworks : ¬ p.Works) (hopens : ∀ c, ¬ p.Opens c) : p.Quiet := by
  intro c
  have hattempts (phase : AttemptPhase) (hphase : phase.works = true) :
      p.attempts.countP (fun x => x.phase = phase) = 0 := by
    refine List.countP_eq_zero.2 fun x hx hsame => hworks ⟨x, hx, ?_⟩
    rw [of_decide_eq_true hsame]
    exact hphase
  refine ⟨?_, hattempts _ rfl⟩
  rw [openings, hattempts _ rfl, Nat.zero_add]
  exact List.countP_eq_zero.2 fun y hy hc => hopens c ⟨y, hy, of_decide_eq_true hc⟩

theorem Quiet.not_connecting (h : p.Quiet) (hp : Sound p) (k : PoolId) :
    p.inState k .connecting = 0 := by
  refine List.countP_eq_zero.2 fun s hs hstate => ?_
  obtain ⟨c, hc⟩ := List.getElem?_of_mem hs
  have howned := (hp.owned c).openings_eq
  have hconnecting : s.state = .connecting := by
    simp only [Bool.and_eq_true, decide_eq_true_eq] at hstate
    exact hstate.2
  rw [(h c).1, if_pos (by simp [state?, hc, hconnecting])] at howned
  cases howned

/-- When nobody has a connection, the open ones are the idle ones. -/
theorem Quiet.length_openIdle (h : p.Quiet) (hp : Sound p) {x : AddressPool}
    (hk : p.pools[k]? = some x) : (p.openIdle x).length = p.inState k .opened := by
  refine length_eq_countP ((hp.nodup_idle hk).filter _) fun c => ⟨fun hc => ?_, ?_⟩
  · obtain ⟨hidle, hopened⟩ := List.mem_filter.1 hc
    obtain ⟨s, hs, hstate⟩ := Option.map_eq_some_iff.1 (of_decide_eq_true hopened)
    obtain ⟨t, ht, hpool⟩ := Option.map_eq_some_iff.1 (hp.idleHome k x hk c hidle)
    obtain rfl : s = t := Option.some.inj (hs.symm.trans ht)
    exact ⟨s, hs, by simp [hpool, hstate]⟩
  · rintro ⟨s, hs, hboth⟩
    simp only [Bool.and_eq_true, decide_eq_true_eq] at hboth
    have hopened : p.state? c = some .opened := by simp [state?, hs, hboth.2]
    have howned := hp.owned c
    rw [hopened, (h c).1, (h c).2] at howned
    have hidle : 0 < p.idleTimes c := by
      simp only [Owned, Hand.holdings_nothing] at howned
      omega
    obtain ⟨j, y, hj, hmem⟩ := exists_mem_idle hidle
    have hhome := hp.idleHome j y hj c hmem
    rw [home?, hs, Option.map_some, hboth.1] at hhome
    obtain rfl := Option.some.inj hhome
    obtain rfl := Option.some.inj (hj.symm.trans hk)
    exact List.mem_filter.2 ⟨hmem, decide_eq_true hopened⟩

/-! ### The promise, as far as it is kept -/

/-- **What shutting down leaves.** Of all connections that are made before or after a pool is
shut down, those that a background opening was connecting at that moment are the only ones that
can be idle and open later on. When nobody connects or has a connection any more, an address
counts these, those whose closing is not done, and those that were left behind by whoever was
connecting them, and nothing else; and this stays so if no attempt was past its look at whether
the pool is shut down. To shut down again changes nothing.

To drop a lease is one step here (`release`), from its look at whether the pool is shut down to
the connection being idle. A pool that is shut down in between has one more connection that stays
idle and open; what is said here is about drops that are not overtaken like this. -/
theorem shutDown_leaves (config : PoolConfig) (before after : List Action)
    (hup : (run { config := config } before).shutDown = false) :
    let p := run { config := config } before
    let q := run (p.step .shutDown) after
    q.step .shutDown = q ∧
      (∀ (k : PoolId) (x : AddressPool), q.pools[k]? = some x → ∀ c ∈ q.openIdle x, p.Opens c) ∧
      (q.Quiet → ∀ (k : PoolId) (x : AddressPool), q.pools[k]? = some x →
        x.live = (q.openIdle x).length + q.inState k .closing + q.inState k .lost) ∧
      (¬ q.Works → (∀ c, ¬ q.Opens c) → ∀ more, (q.run more).Quiet) := by
  intro p q
  have hp : Sound p := (sound_empty config).run before
  have haddressed : Addressed p := (addressed_empty config).run (sound_empty config) before
  have hended : Ended p.Opens (p.step .shutDown) := ended_beginShutDown hp haddressed hup
  have hq : Sound q := (hp.step .shutDown).run after
  have hend : Ended p.Opens q := hended.run (hp.step .shutDown) after
  refine ⟨?_, fun k x hk c hc => ?_, fun hquiet k x hk => ?_, fun hworks hopens more => ?_⟩
  · show q.beginShutDown = q
    rw [beginShutDown, if_pos hend.down]
  · obtain ⟨hidle, hopened⟩ := List.mem_filter.1 hc
    refine hend.idle c (of_decide_eq_true hopened) ?_
    exact Nat.lt_of_lt_of_le (List.count_pos_iff.2 hidle) (count_idle_le hk c)
  · have hlive := hq.balanced k x hk
    rw [roomTaken_eq_inState, hquiet.not_connecting hq, ← hquiet.length_openIdle hq hk] at hlive
    simpa using hlive
  · have hebbs := Ebbs.run hend.down more
    exact quiet_of_not_works (hworks ∘ hebbs.works) fun c => hopens c ∘ hebbs.opens c

/-- Two attempts and a background opening, caught with a lease and with two connects. -/
theorem shutDown_leaves_opening :
    let config : PoolConfig := { minSize := 2, maxSize := 3 }
    let p := run { config := config } [.arrive "a:1", .arrive "a:1", .warm 0, .listen 0,
      .noneIdle 0, .claim 0, .listen 1, .noneIdle 1, .claim 1, .connected 0]
    let q := run (p.step .shutDown) [.connected 1, .warmConnected 0, .release 0, .release 1, .warm 0]
    p.shutDown = false ∧ q.Quiet ∧ q.step .shutDown = q ∧
      (∀ (k : PoolId) (x : AddressPool), q.pools[k]? = some x → ∀ c ∈ q.openIdle x, p.Opens c) ∧
      (∀ (k : PoolId) (x : AddressPool), q.pools[k]? = some x →
        x.live = (q.openIdle x).length + q.inState k .closing + q.inState k .lost) ∧
      ∀ more, (q.run more).Quiet := by
  intro config p q
  have hup : p.shutDown = false := by decide
  have hworks : ¬ q.Works := by
    have hnone : ∀ x ∈ q.attempts, x.phase.works = false := by decide
    rintro ⟨x, hx, hphase⟩
    rw [hnone x hx] at hphase
    cases hphase
  have hopens (c : ConnectionId) : ¬ q.Opens c := by
    have hnone : ∀ y ∈ q.warmUps, y.connecting = none := by decide
    rintro ⟨y, hy, hc⟩
    rw [hnone y hy] at hc
    cases hc
  obtain ⟨hagain, hleft, hlive, hstays⟩ := shutDown_leaves config _ _ hup
  have hquiet : q.Quiet := quiet_of_not_works hworks hopens
  exact ⟨hup, hquiet, hagain, hleft, hlive hquiet, hstays hworks hopens⟩

/-- **Not everything is closed for good.** The connection that a background opening is connecting
when the pool is shut down is made afterwards, is idle, and stays open. -/
theorem opening_outlives_shutDown :
    let config : PoolConfig := { minSize := 1, maxSize := 1 }
    let p := run { config := config } [.arrive "a:1", .warm 0]
    let q := run (p.step .shutDown) [.listen 0, .warmConnected 0]
    q.attempts.map Attempt.phase = [.failed .shutDown] ∧
      q.warmUps.map WarmUp.connecting = [none] ∧
      q.pools.map AddressPool.live = [1] ∧ q.pools.map q.openIdle = [[0]] ∧
      q.stats "a:1" = some ⟨1, 1, 0⟩ := by
  decide +kernel

end Pool
end RemoteCall.Transport
