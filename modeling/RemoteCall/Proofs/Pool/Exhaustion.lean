import Mathlib.Data.List.Count
import RemoteCall.Proofs.Pool.Ceiling
import RemoteCall.Proofs.Pool.Queues

/-! When an attempt that waits for a connection gives up.

An attempt looks twice, for an idle connection and for room, and waits for a call if it has looked
in vain. Every connection that becomes idle and all room that is given back is told of by one
call. So as long as somebody who listens has looked in vain, there is no more by now than attempts
that have still to look and calls that are held (`Heeded`); in the middle of a step the call for a
change may still be due.

A call goes to whoever has listened longest, and an attempt goes on listening while it is
connecting, when it looks for nothing. The call is lost to the others until that attempt has ended.
So a timeout says that the address is exhausted (`timeOut_exhausted`), unless a call is detained
like this; then somebody can give up beside an idle connection (`timeOut_beside_idle`). -/
namespace RemoteCall.Transport

/-- What an attempt looks for before it waits: an idle connection, then room for a new one. -/
inductive Look where
  | idle
  | room
  deriving DecidableEq, Repr

/-- Whether the attempt has still to look. -/
def AttemptPhase.before : AttemptPhase → Look → Bool
  | arrived, _ | looking, _ | claiming, .room => true
  | _, _ => false

/-- Whether the attempt has looked in vain. -/
def AttemptPhase.after : AttemptPhase → Look → Bool
  | waiting, _ | claiming, .idle => true
  | _, _ => false

def AttemptPhase.connects : AttemptPhase → Bool
  | connecting _ => true
  | _ => false

theorem AttemptPhase.before_of_idle {phase : AttemptPhase} (h : phase.before .idle = true)
    (look : Look) : phase.before look = true := by
  cases phase <;> cases look <;> simp_all [before]

theorem AttemptPhase.after_idle {phase : AttemptPhase} {look : Look} (h : phase.after look = true) :
    phase.after .idle = true := by
  cases phase <;> cases look <;> simp_all [after]

namespace Pool

variable {p q : Pool} {a b : AttemptId} {y : Attempt} {k j : PoolId} {x : AddressPool} {e : Ear}
  {c : ConnectionId} {due due' : Look → Int} {look : Look}

/-- What there is for attempts that come after a look: idle connections that are open, and
after the second one also room. -/
def spare (p : Pool) (look : Look) (x : AddressPool) : Nat :=
  (p.openIdle x).length + match look with
    | .idle => 0
    | .room => p.limit - x.live

/-- How many attempts hold a call. -/
def called (p : Pool) (k : PoolId) : Nat :=
  p.attempts.countP fun y => y.pool = some k && y.ear = .called

/-- How many attempts have a look still before them. -/
def seekers (p : Pool) (look : Look) (k : PoolId) : Nat :=
  p.attempts.countP fun y => y.pool = some k && y.phase.before look

/-- Whether somebody who listens has looked in vain. -/
def Halts (p : Pool) (k : PoolId) (look : Look) : Prop :=
  ∃ y ∈ p.attempts, y.pool = some k ∧ y.ear = .listening ∧ y.phase.after look = true

theorem Halts.listens (h : p.Halts k look) : ∃ a, p.Listens k a := by
  obtain ⟨y, hy, hk, hear, -⟩ := h
  obtain ⟨a, ha⟩ := List.getElem?_of_mem hy
  exact ⟨a, y, ha, hk, hear⟩

theorem Halts.earlier (h : p.Halts k look) : p.Halts k .idle := by
  obtain ⟨y, hy, hk, hear, hafter⟩ := h
  exact ⟨y, hy, hk, hear, AttemptPhase.after_idle hafter⟩

/-- As long as somebody has looked in vain and waits to be called, whatever there is by now is
spoken for, but for what is still due in the middle of a step. -/
structure Heeded (k : PoolId) (due : Look → Int) (p : Pool) : Prop where
  queues : Queues p
  bound : ∀ (look : Look) (x : AddressPool), p.pools[k]? = some x → p.Halts k look →
    (p.spare look x : Int) ≤ p.called k + p.seekers look k + due look

/-- A connection that somebody is connecting is not idle. -/
theorem Books.idleTimes_of_connecting (hp : Sound p) (hc : 0 < p.openings c) :
    p.idleTimes c = 0 := by
  have howned := hp.owned c
  rw [hp.state?_of_openings hc] at howned
  simp only [Owned, Hand.openings_nothing, Hand.holdings_nothing] at howned
  omega

theorem state?_of_usable (hc : p.socketUsable c = true) : p.state? c = some .opened := by
  unfold socketUsable at hc
  split at hc
  · next s hs =>
    simp only [Socket.usable, Bool.and_eq_true, decide_eq_true_eq] at hc
    simp [state?, hs, hc.1]
  · cases hc

theorem length_openIdle_concat (p : Pool) (x : AddressPool) (c : ConnectionId) :
    (p.openIdle { x with idle := x.idle ++ [c] }).length ≤ (p.openIdle x).length + 1 := by
  rw [openIdle, List.filter_append, List.length_append]
  exact Nat.add_le_add_left (List.length_filter_le _ [c]) _

theorem length_openIdle_erase (p : Pool) {x : AddressPool} (hc : c ∈ x.idle) :
    (p.openIdle { x with idle := x.idle.erase c }).length =
      (p.openIdle x).length - if p.state? c = some .opened then 1 else 0 := by
  simp only [openIdle, ← List.countP_eq_length_filter, List.countP_erase, hc, true_and,
    decide_eq_true_eq]

/-! ### One change -/

namespace Heeded

theorem mono (h : Heeded k due p) (hle : ∀ look, due look ≤ due' look) : Heeded k due' p :=
  ⟨h.queues, fun look x hk hhalts => by
    have := h.bound look x hk hhalts
    have := hle look
    omega⟩

theorem of_silent (h : Queues p) (hsilent : Silent p) : Heeded k due p := by
  refine ⟨h, fun look x _ hhalts => ?_⟩
  obtain ⟨a, hlistens⟩ := hhalts.listens
  exact absurd hlistens (hsilent k a)

theorem modifyPool (h : Heeded k due p) (j : PoolId) {f : AddressPool → AddressPool}
    (hwaiting : ∀ x, (f x).waiting = x.waiting) (more : Look → Int)
    (hspare : ∀ x, p.pools[j]? = some x → ∀ look,
      (p.spare look (f x) : Int) ≤ p.spare look x + more look) :
    Heeded k (fun look => due look + if j = k then more look else 0) (p.modifyPool j f) := by
  refine ⟨h.queues.modifyPool j hwaiting, fun look z hk hhalts => ?_⟩
  show (p.spare look z : Int) ≤ p.called k + p.seekers look k + _
  obtain ⟨x, hx, ⟨rfl, rfl⟩ | ⟨hjk, rfl⟩⟩ := entry_modifyPool hk
  · have := h.bound look x hx hhalts
    have := hspare x hx look
    rw [if_pos rfl]
    omega
  · have := h.bound look z hx hhalts
    rw [if_neg hjk]
    omega

/-- A change that makes no more connections idle and no more room. -/
theorem shrink (h : Heeded k due p) (j : PoolId) {f : AddressPool → AddressPool}
    (hwaiting : ∀ x, (f x).waiting = x.waiting)
    (hspare : ∀ x, p.pools[j]? = some x → ∀ look, p.spare look (f x) ≤ p.spare look x) :
    Heeded k due (p.modifyPool j f) := by
  refine (h.modifyPool j hwaiting (fun _ => 0) fun x hx look => ?_).mono fun look => ?_
  · have := hspare x hx look
    omega
  · split <;> omega

/-- Connections change, and none becomes open. -/
theorem sockets (h : Heeded k due p) (hpools : q.pools = p.pools)
    (hattempts : q.attempts = p.attempts) (hconfig : q.config = p.config)
    (hopened : ∀ x, p.pools[k]? = some x → ∀ c ∈ x.idle,
      q.state? c = some .opened → p.state? c = some .opened) : Heeded k due q := by
  refine ⟨h.queues.same hpools hattempts, fun look x hk hhalts => ?_⟩
  rw [hpools] at hk
  rw [Halts, hattempts] at hhalts
  have hidle : (q.openIdle x).length ≤ (p.openIdle x).length := by
    simp only [openIdle, ← List.countP_eq_length_filter]
    refine List.countP_mono_left fun c hc hstate => ?_
    simpa using hopened x hk c hc (by simpa using hstate)
  have hspare : q.spare look x ≤ p.spare look x := by
    simp only [spare, limit, hconfig]
    omega
  have := h.bound look x hk hhalts
  rw [called, seekers, hattempts]
  simp only [called, seekers] at this
  omega

/-- Nothing changes that has to do with calls or connections. -/
theorem same (h : Heeded k due p) (hpools : q.pools = p.pools) (hattempts : q.attempts = p.attempts)
    (hsockets : q.sockets = p.sockets) (hconfig : q.config = p.config) : Heeded k due q :=
  h.sockets hpools hattempts hconfig fun _ _ _ _ hstate => by rwa [state?, ← hsockets]

/-- A connection is not open any more, or was not idle. -/
theorem setState (h : Heeded k due p) (c : ConnectionId) (state : SocketState)
    (hc : state ≠ .opened ∨ p.idleTimes c = 0) : Heeded k due (p.setState c state) := by
  refine h.sockets rfl rfl rfl fun x hk d hd hstate => ?_
  by_cases hcd : c = d
  · subst hcd
    obtain hne | hnone := hc
    · obtain ⟨s, hs, -⟩ := Option.map_eq_some_iff.1 hstate
      have hs' : ∃ t, p.sockets[c]? = some t := by
        simp only [Pool.setState, modifySocket, List.getElem?_modify] at hs
        exact (Option.map_eq_some_iff.1 hs).imp fun t ht => ht.1
      obtain ⟨t, ht⟩ := hs'
      rw [state?_setState_self ht] at hstate
      exact absurd (Option.some.inj hstate) hne
    · have := List.count_pos_iff.2 hd
      have := count_idle_le hk c
      omega
  · rwa [state?_setState_of_ne hcd] at hstate

/-! ### Calls -/

/-- What an attempt weighs among those that hold a call. -/
theorem called_setEar (ha : p.attempts[a]? = some y) (hj : y.pool = some j) (e : Ear) :
    ((p.setEar a e).called k : Int) = p.called k +
      if j = k then ((decide (e = .called)).toNat : Int) - (decide (y.ear = .called)).toNat else 0 := by
  have := countP_modify ha (fun z => { z with ear := e }) fun z =>
    z.pool = some k && z.ear = .called
  simp only [called, Pool.setEar, modifyAttempt]
  simp only [hj, Option.some.injEq] at this
  split
  · next hjk =>
    simp only [hjk, decide_true, Bool.true_and] at this
    omega
  · next hjk =>
    simp only [hjk, decide_false, Bool.false_and] at this
    omega

theorem seekers_setEar (p : Pool) (a : AttemptId) (e : Ear) (look : Look) (k : PoolId) :
    (p.setEar a e).seekers look k = p.seekers look k :=
  countP_modify_of_eq (fun z : Attempt => { z with ear := e })
    (fun z => z.pool = some k && z.phase.before look) (fun _ => rfl) p.attempts a

theorem called_setPhase (p : Pool) (a : AttemptId) (phase : AttemptPhase) (k : PoolId) :
    (p.setPhase a phase).called k = p.called k :=
  countP_modify_of_eq (fun z : Attempt => { z with phase := phase })
    (fun z => z.pool = some k && z.ear = .called) (fun _ => rfl) p.attempts a

theorem seekers_setPhase (ha : p.attempts[a]? = some y) (hj : y.pool = some j)
    (phase : AttemptPhase) (look : Look) :
    ((p.setPhase a phase).seekers look k : Int) = p.seekers look k +
      if j = k then ((phase.before look).toNat : Int) - (y.phase.before look).toNat else 0 := by
  have := countP_modify ha (fun z => { z with phase := phase }) fun z =>
    z.pool = some k && z.phase.before look
  simp only [seekers, Pool.setPhase, modifyAttempt]
  simp only [hj, Option.some.injEq] at this
  split
  · next hjk =>
    simp only [hjk, decide_true, Bool.true_and] at this
    omega
  · next hjk =>
    simp only [hjk, decide_false, Bool.false_and] at this
    omega

/-- Who halts after a change of one attempt. -/
theorem halts_of_modify {f : Attempt → Attempt} (ha : p.attempts[a]? = some y)
    (hattempts : q.attempts = p.attempts.modify a f) (hhalts : q.Halts k look)
    (hy : (f y).pool = some k → (f y).ear = .listening → (f y).phase.after look = true →
      p.Halts k look) : p.Halts k look := by
  obtain ⟨z, hz, hk, hear, hafter⟩ := hhalts
  rw [hattempts] at hz
  obtain hz | rfl := mem_modify ha hz
  · exact ⟨z, hz, hk, hear, hafter⟩
  · exact hy hk hear hafter

/-- An attempt goes on, and has not looked in vain any more than before. -/
theorem setPhase (h : Heeded k due p) (ha : p.attempts[a]? = some y) (hj : y.pool = some j)
    (phase : AttemptPhase) (hoff : phase.hears = false → y.ear = .off)
    (hafter : ∀ look, y.ear = .listening → phase.after look = true → y.phase.after look = true) :
    Heeded k (fun look => due look +
      if j = k then ((y.phase.before look).toNat : Int) - (phase.before look).toNat else 0)
      (p.setPhase a phase) := by
  refine ⟨h.queues.setPhase ha hoff, fun look x hk hhalts => ?_⟩
  have hbefore : p.Halts k look := halts_of_modify ha rfl hhalts fun hpool hear hphase =>
    ⟨y, List.mem_of_getElem? ha, hpool, hear, hafter look hear hphase⟩
  have hbound := h.bound look x hk hbefore
  have hseekers := seekers_setPhase (k := k) ha hj phase look
  rw [called_setPhase]
  show (p.spare look x : Int) ≤ _
  by_cases hjk : j = k
  · rw [if_pos hjk] at hseekers ⊢
    omega
  · rw [if_neg hjk] at hseekers ⊢
    omega

/-- An attempt that does not listen hears something else. -/
theorem setEar (h : Heeded k due p) (ha : p.attempts[a]? = some y) (hj : y.pool = some j)
    (hy : y.ear ≠ .listening) (he : e ≠ .listening) (hoff : y.phase.hears = false → e = .off) :
    Heeded k (fun look => due look + if j = k then
      ((decide (y.ear = .called)).toNat : Int) - (decide (e = .called)).toNat else 0)
      (p.setEar a e) := by
  refine ⟨h.queues.setEar ha (not_listens ha fun hear => absurd hear hy) he hoff,
    fun look x hk hhalts => ?_⟩
  have hbefore : p.Halts k look := halts_of_modify ha rfl hhalts fun _ hear => absurd hear he
  have hbound := h.bound look x hk hbefore
  have hcalled := called_setEar (k := k) ha hj e
  rw [seekers_setEar]
  show (p.spare look x : Int) ≤ _
  by_cases hjk : j = k
  · rw [if_pos hjk] at hcalled ⊢
    omega
  · rw [if_neg hjk] at hcalled ⊢
    omega

/-- An attempt enters or leaves the queue of its address pool. -/
theorem turn (h : Heeded k due p) (ha : p.attempts[a]? = some y) (hj : y.pool = some j)
    (hpool : p.pools[j]? = some x) {f : AddressPool → AddressPool} (hidle : (f x).idle = x.idle)
    (hlive : (f x).live = x.live) (hqueues : Queues ((p.modifyPool j f).setEar a e))
    (hafter : e = .listening → ∀ look, y.phase.after look = false) :
    Heeded k (fun look => due look + if j = k then
      ((decide (y.ear = .called)).toNat : Int) - (decide (e = .called)).toNat else 0)
      ((p.modifyPool j f).setEar a e) := by
  refine ⟨hqueues, fun look z hk hhalts => ?_⟩
  have hbefore : p.Halts k look := by
    refine halts_of_modify (f := fun y => { y with ear := e }) ha rfl hhalts fun _ hear hphase => ?_
    exact absurd ((hafter hear look).symm.trans hphase) Bool.false_ne_true
  have hcalled : _ = (p.called k : Int) + _ :=
    called_setEar (p := p.modifyPool j f) (k := k) ha hj e
  have hseekers : _ = p.seekers look k := seekers_setEar (p.modifyPool j f) a e look k
  rw [hseekers]
  show (p.spare look z : Int) ≤ _
  obtain ⟨x', hx, hsame⟩ : ∃ x', p.pools[k]? = some x' ∧ p.spare look z = p.spare look x' := by
    obtain ⟨x', hx, ⟨rfl, rfl⟩ | ⟨-, rfl⟩⟩ := entry_modifyPool (p := p) hk
    · obtain rfl := Option.some.inj (hpool.symm.trans hx)
      exact ⟨x, hx, by simp only [spare, openIdle, hidle, hlive]⟩
    · exact ⟨z, hx, rfl⟩
  have hbound := h.bound look x' hx hbefore
  by_cases hjk : j = k
  · rw [if_pos hjk] at hcalled ⊢
    omega
  · rw [if_neg hjk] at hcalled ⊢
    omega

/-- A call is heard by somebody, if anybody halts; then what was due is spoken for. -/
theorem callOne (h : Heeded k due p) (j : PoolId) :
    Heeded k (fun look => due look + if j = k then -1 else 0) (p.callOne j) := by
  refine ⟨h.queues.callOne j, ?_⟩
  have hqueues := h.queues.callOne j
  unfold Pool.callOne at hqueues ⊢
  cases hj : p.pools[j]? with
  | none =>
    intro look x hk hhalts
    have hjk : j ≠ k := by
      rintro rfl
      simp [hj] at hk
    simpa [hjk] using h.bound look x hk hhalts
  | some x =>
    rw [hj] at hqueues
    dsimp only at hqueues ⊢
    split at hqueues
    · next hnobody =>
      intro look z hk hhalts
      by_cases hjk : j = k
      · subst hjk
        obtain ⟨a, hlistens⟩ := hhalts.listens
        have hwaits := (h.queues.waits j x hj a).2 hlistens
        simp [hnobody] at hwaits
      · rw [if_neg hjk, Int.add_zero]
        exact (h.shrink j (f := fun x => { x with spareCall := true }) (fun _ => rfl)
          fun _ _ _ => Nat.le_refl _).bound look z hk hhalts
    · next b rest hwaiting =>
      obtain ⟨y, hy, hpool, hear, -⟩ := h.queues.callFirst hj hwaiting
      have hturned := h.turn hy hpool hj (f := fun x => { x with waiting := rest }) rfl rfl hqueues
        nofun
      simpa [hear] using hturned.bound

/-- A call too many does no harm. -/
theorem callAnyway (h : Heeded k due p) (j : PoolId) : Heeded k due (p.callOne j) :=
  (h.callOne j).mono fun look => by split <;> omega

/-- Who hangs up keeps no call. -/
theorem hangUp (h : Heeded k due p) (ha : p.attempts[a]? = some y) (hj : y.pool = some j) :
    Heeded k due (p.hangUp a) := by
  have hqueues := h.queues.hangUp a
  obtain ⟨x, hpool⟩ := h.queues.house ha hj
  have hquiet (hy : y.ear ≠ .listening) := h.setEar ha hj hy (e := .off) (by decide) fun _ => rfl
  unfold Pool.hangUp at hqueues ⊢
  simp only [ha, hj] at hqueues ⊢
  cases hear : y.ear with
  | listening =>
    simp only [hear] at hqueues ⊢
    refine (h.turn ha hj hpool (f := fun x => { x with waiting := x.waiting.erase a }) rfl rfl
      hqueues nofun).mono fun look => ?_
    simp [hear]
  | called =>
    refine ((hquiet (by simp [hear])).callOne j).mono fun look => ?_
    simp only [hear]
    split
    · show due look + (1 - 0) + -1 ≤ due look
      omega
    · simp
  | off | calledWithAll | heard =>
    refine (hquiet (by simp [hear])).mono fun look => ?_
    simp [hear]

/-- Who begins to listen has not looked yet. -/
theorem startListening (h : Heeded k due p) (ha : p.attempts[a]? = some y) (hj : y.pool = some j)
    (hear : y.ear = .off) (hhears : y.phase.hears = true)
    (hafter : ∀ look, y.phase.after look = false) : Heeded k due (p.startListening a j) := by
  obtain ⟨x, hpool⟩ := h.queues.house ha hj
  have hon (e : Ear) : y.phase.hears = false → e = .off := fun hoff => by simp [hhears] at hoff
  unfold Pool.startListening
  rw [hpool]
  dsimp only
  split
  · have hspare := h.shrink j (f := fun x => { x with spareCall := false }) (fun _ => rfl)
      fun _ _ _ => Nat.le_refl _
    refine (hspare.setEar ha hj (by simp [hear]) (by decide) (hon _)).mono fun look => ?_
    simp [hear]
  · have hnot : a ∉ x.waiting := fun hmem =>
      not_listens ha (by simp [hear]) j ((h.queues.waits j x hpool a).1 hmem)
    refine (h.turn ha hj hpool (f := fun x => { x with waiting := x.waiting ++ [a] }) rfl rfl ?_
      fun _ => hafter).mono fun look => ?_
    · refine h.queues.turn ha hj hpool ?_ (fun b => ?_) (hon _)
      · refine List.nodup_append.2 ⟨h.queues.nodup j x hpool, by simp, fun b hb c hc => ?_⟩
        rintro rfl
        exact hnot (List.mem_singleton.1 hc ▸ hb)
      · by_cases hba : b = a <;> simp [hba]
    · simp [hear]

/-! ### Room -/

/-- Room that is given back is told of. -/
theorem giveRoom (h : Heeded k due p) (j : PoolId) : Heeded k due (p.giveRoom j) := by
  have hmore := h.modifyPool j (f := fun x => { x with live := countDown x.live }) (fun _ => rfl)
    (fun _ => 1) fun x _ look => by
      cases look with
      | idle => exact Int.le_add_of_nonneg_right (by decide)
      | room =>
        show (((p.openIdle x).length + (p.limit - countDown x.live) : Nat) : Int) ≤
          ((p.openIdle x).length + (p.limit - x.live) : Nat) + 1
        unfold countDown
        split <;> omega
  exact (hmore.callOne j).mono fun look => by split <;> omega

/-- A connection is begun in room that there was. -/
theorem begin (h : Heeded k due p) (hroom : p.hasRoom j = true) :
    Heeded k (fun look => due look + if j = k then (match look with | .idle => 0 | .room => -1) else 0)
      (p.begin j).2 := by
  obtain ⟨x, hpool, hlt⟩ : ∃ x, p.pools[j]? = some x ∧ x.live < p.limit := by
    unfold hasRoom at hroom
    split at hroom
    · next x hpool => exact ⟨x, hpool, by simpa using hroom⟩
    · cases hroom
  have htaken := h.modifyPool j (f := fun x => { x with live := x.live + 1 }) (fun _ => rfl)
    (fun look => match look with | .idle => 0 | .room => -1) fun z hz look => by
      obtain rfl := Option.some.inj (hpool.symm.trans hz)
      cases look with
      | idle => exact Int.le_refl _
      | room =>
        show (((p.openIdle x).length + (p.limit - (x.live + 1)) : Nat) : Int) ≤
          ((p.openIdle x).length + (p.limit - x.live) : Nat) + -1
        omega
  refine htaken.sockets rfl rfl rfl fun z _ d _ hstate => ?_
  obtain ⟨s, hs, hopened⟩ := Option.map_eq_some_iff.1 hstate
  by_cases hlt : d < p.sockets.length
  · rw [Pool.begin, List.getElem?_append_left hlt] at hs
    exact Option.map_eq_some_iff.2 ⟨s, hs, hopened⟩
  · rw [Pool.begin, List.getElem?_append_right (Nat.le_of_not_lt hlt)] at hs
    obtain rfl := List.mem_singleton.1 (List.mem_of_getElem? hs)
    cases hopened

theorem close (h : Heeded k due p) (c : ConnectionId) : Heeded k due (p.close c) := by
  unfold Pool.close
  split
  · next s _ =>
    split
    · exact (h.setState c .closed (.inl (by decide))).giveRoom s.pool
    · exact h
  · exact h

/-! ### Steps of attempts -/

theorem startListening_setPhase (p : Pool) (a : AttemptId) (j : PoolId) (phase : AttemptPhase) :
    (p.startListening a j).setPhase a phase = (p.setPhase a phase).startListening a j := by
  have hpools : (p.setPhase a phase).pools = p.pools := rfl
  unfold Pool.startListening
  rw [hpools]
  cases p.pools[j]? with
  | none => rfl
  | some x =>
    dsimp only
    split <;>
      (simp only [Pool.setPhase, Pool.setEar, modifyAttempt, Pool.modifyPool, List.modify_modify_eq]
       rfl)

theorem listen (h : Heeded k (fun _ => 0) p) (hsilent : p.shutDown = true → Silent p)
    (ha : p.attempts[a]? = some y) (hj : y.pool = some j) (hy : y.phase = .arrived) :
    Heeded k (fun _ => 0) (p.listen a j) := by
  have hear := h.queues.off y (List.mem_of_getElem? ha) (by rw [hy]; rfl)
  unfold Pool.listen
  dsimp only
  rw [shutDown_startListening]
  split
  · next hdown =>
    rw [h.queues.hangUp_startListening ha hj hear]
    have hleft := h.queues.modifyPool j (f := fun x => { x with spareCall := false }) fun _ => rfl
    refine of_silent (hleft.setPhase ha fun _ => hear) ?_
    exact (((Quieter.refl p).modifyPool j _).setPhase a _).silent (hsilent hdown)
  · rw [startListening_setPhase]
    have hlooks := h.setPhase ha hj .looking nofun nofun
    refine (hlooks.mono fun look => ?_).startListening (attempts_setPhase ha .looking) hj hear rfl
      fun look => by cases look <;> rfl
    simp only [hy]
    cases look <;> exact Int.le_of_eq (by split <;> rfl)

theorem lease (h : Heeded k due p) (ha : p.attempts[a]? = some y) (hj : y.pool = some j)
    (c : ConnectionId) : Heeded k (fun look => due look +
      if j = k then ((y.phase.before look).toNat : Int) else 0) (p.lease a j c) := by
  have hnoted := h.shrink j (f := fun x => { x with busy := x.busy ++ [c] }) (fun _ => rfl)
    fun _ _ _ => Nat.le_refl _
  have hz := hnoted.queues.attempts_hangUp ha
  refine ((hnoted.hangUp ha hj).setPhase hz hj (.leased c) (fun _ => rfl) nofun).mono
    fun look => Int.le_of_eq ?_
  simp [AttemptPhase.before]

/-- Between the looks of an attempt and the waits of others stands what it takes. -/
theorem take (h : Heeded k (fun _ => 0) p) (ha : p.attempts[a]? = some y) (hj : y.pool = some j)
    (hy : y.phase = .looking) (c : ConnectionId) : Heeded k (fun _ => 0) (p.take a j c) := by
  unfold Pool.take
  split
  · exact h
  · next x hpool =>
    split
    · next hc =>
      have hmem : c ∈ x.idle := by simpa using hc
      dsimp only
      split
      · next husable =>
        have hopened : p.state? c = some .opened := state?_of_usable husable
        have hpos : 0 < (p.openIdle x).length :=
          List.length_pos_of_mem (List.mem_filter.2 ⟨hmem, by simp [hopened]⟩)
        have htaken := h.modifyPool j (f := fun x => { x with idle := x.idle.erase c })
          (fun _ => rfl) (fun _ => -1) fun z hz look => by
            obtain rfl := Option.some.inj (hpool.symm.trans hz)
            simp only [spare, p.length_openIdle_erase hmem, if_pos hopened]
            omega
        refine (htaken.lease ha hj c).mono fun look => ?_
        rw [hy]
        cases look <;> split <;> decide
      · refine (h.shrink j (f := fun x => { x with idle := x.idle.erase c }) (fun _ => rfl)
          fun z hz look => ?_).close c
        obtain rfl := Option.some.inj (hpool.symm.trans hz)
        simp only [spare, p.length_openIdle_erase hmem]
        omega
    · exact h

/-- Whoever has found nothing idle halts, but then there is nothing idle. -/
theorem goOn (h : Heeded k (fun _ => 0) p) (ha : p.attempts[a]? = some y) (hj : y.pool = some j)
    (hy : y.phase = .looking) (hpool : p.pools[j]? = some x) (hidle : x.idle = []) :
    Heeded k (fun _ => 0) (p.setPhase a .claiming) := by
  refine ⟨h.queues.setPhase ha nofun, fun look z hk hhalts => ?_⟩
  have hseekers := seekers_setPhase (k := k) ha hj .claiming look
  rw [called_setPhase]
  show (p.spare look z : Int) ≤ _
  by_cases hjk : j = k ∧ look = .idle
  · obtain ⟨rfl, rfl⟩ := hjk
    obtain rfl := Option.some.inj (hpool.symm.trans hk)
    have hnone : p.spare .idle x = 0 := by simp [spare, openIdle, hidle]
    omega
  · have hbefore : p.Halts k look := by
      refine halts_of_modify ha rfl hhalts fun hpool _ hphase => absurd ?_ hjk
      refine ⟨Option.some.inj (hj.symm.trans hpool), ?_⟩
      cases look with
      | idle => rfl
      | room => cases hphase
    have hbound := h.bound look z hk hbefore
    have hsame : j = k → AttemptPhase.claiming.before look = y.phase.before look := by
      rintro rfl
      cases look with
      | idle => exact absurd ⟨rfl, rfl⟩ hjk
      | room => rw [hy]; rfl
    split at hseekers
    · next hjk =>
      rw [hsame hjk] at hseekers
      omega
    · omega

/-- Whoever has found no room halts, and has found nothing idle before. -/
theorem wait (h : Heeded k (fun _ => 0) p) (ha : p.attempts[a]? = some y) (hj : y.pool = some j)
    (hy : y.phase = .claiming) (hroom : p.hasRoom j = false) :
    Heeded k (fun _ => 0) (p.setPhase a .waiting) := by
  refine ⟨h.queues.setPhase ha nofun, fun look z hk hhalts => ?_⟩
  have hmem := List.mem_of_getElem? ha
  have hidle : (p.setPhase a .waiting).Halts k .idle → p.Halts k .idle := fun hhalts =>
    halts_of_modify ha rfl hhalts fun hpool hear _ => ⟨y, hmem, hpool, hear, by rw [hy]; rfl⟩
  rw [called_setPhase]
  show (p.spare look z : Int) ≤ _
  by_cases hjk : j = k
  · subst hjk
    -- Without room there is after the second look what there was after the first.
    have hfull : p.spare look z = p.spare .idle z := by
      cases look with
      | idle => rfl
      | room =>
        have hz : p.pools[j]? = some z := hk
        have hlive : p.limit ≤ z.live := by simpa [hasRoom, hz] using hroom
        simp only [spare]
        omega
    have hahead : (p.setPhase a .waiting).seekers .idle j ≤ (p.setPhase a .waiting).seekers look j := by
      refine List.countP_mono_left fun z _ hz => ?_
      simp only [Bool.and_eq_true, decide_eq_true_eq] at hz ⊢
      exact ⟨hz.1, AttemptPhase.before_of_idle hz.2 look⟩
    have hseekers : ((p.setPhase a .waiting).seekers .idle j : Int) = p.seekers .idle j := by
      rw [seekers_setPhase ha hj, hy]
      simp [AttemptPhase.before]
    have hbound := h.bound .idle z hk (hidle hhalts.earlier)
    omega
  · have hbefore : p.Halts k look := halts_of_modify ha rfl hhalts fun hpool _ _ =>
      absurd (Option.some.inj (hj.symm.trans hpool)) hjk
    have hbound := h.bound look z hk hbefore
    have hseekers := seekers_setPhase (k := k) ha hj .waiting look
    rw [if_neg hjk] at hseekers
    omega

theorem claim (h : Heeded k (fun _ => 0) p) (ha : p.attempts[a]? = some y) (hj : y.pool = some j)
    (hy : y.phase = .claiming) : Heeded k (fun _ => 0) (p.claim a j) := by
  unfold Pool.claim
  split
  · next hroom =>
    refine ((h.begin hroom).setPhase (y := y) ha hj (.connecting _) nofun nofun).mono
      fun look => ?_
    rw [hy]
    cases look <;> split <;> simp [AttemptPhase.before]
  · next hroom => exact h.wait ha hj hy (Bool.eq_false_iff.2 hroom)

theorem connected (h : Heeded k (fun _ => 0) p) (hp : Sound p) (ha : p.attempts[a]? = some y)
    (hj : y.pool = some j) (hy : y.phase = .connecting c) :
    Heeded k (fun _ => 0) ((p.setState c .opened).lease a j c) := by
  have hnew := hp.idleTimes_of_connecting (openings_of_attempt ha hy)
  refine ((h.setState c .opened (.inr hnew)).lease ha hj c).mono fun look => ?_
  rw [hy]
  split <;> simp [AttemptPhase.before]

/-- Whoever gives up hangs up. -/
theorem giveUp (h : Heeded k (fun _ => 0) p) (ha : p.attempts[a]? = some y) (hj : y.pool = some j)
    (hy : ∀ look, y.phase.before look = false) (phase : AttemptPhase) :
    Heeded k (fun _ => 0) ((p.hangUp a).setPhase a phase) := by
  have hz := h.queues.attempts_hangUp ha
  refine ((h.hangUp ha hj).setPhase hz hj phase (fun _ => rfl) fun look hear => by cases hear).mono
    fun look => ?_
  rw [hy]
  split <;> simp

theorem refuse (h : Heeded k (fun _ => 0) p) (ha : p.attempts[a]? = some y) (hj : y.pool = some j)
    (hy : y.phase = .connecting c) (error : TransportError) :
    Heeded k (fun _ => 0) (p.refuse a j c error) := by
  have hfreed := (h.setState c .refused (.inl (by decide))).giveRoom j
  obtain ⟨z, hz, hphase, hpool⟩ := attempt_of_hushed (attempts_giveRoom (p.setState c .refused) j) ha
  refine hfreed.giveUp hz (hpool.trans hj) (fun look => ?_) _
  rw [hphase, hy]
  cases look <;> rfl

theorem lose (h : Heeded k (fun _ => 0) p) (ha : p.attempts[a]? = some y) (hj : y.pool = some j)
    (hy : y.phase = .connecting c) :
    Heeded k (fun _ => 0) (((p.setState c .lost).hangUp a).setPhase a .done) := by
  refine (h.setState c .lost (.inl (by decide))).giveUp ha hj (fun look => ?_) _
  rw [hy]
  cases look <;> rfl

/-- A connection that becomes idle is told of. -/
theorem putIdle (h : Heeded k due p) (j : PoolId) (c : ConnectionId) :
    Heeded k due ((p.modifyPool j fun x => { x with idle := x.idle ++ [c] }).callOne j) := by
  have hidle := h.modifyPool j (f := fun x => { x with idle := x.idle ++ [c] }) (fun _ => rfl)
    (fun _ => 1) fun x _ look => by
      have := p.length_openIdle_concat x c
      simp only [spare]
      omega
  exact (hidle.callOne j).mono fun look => by split <;> omega

theorem wake (h : Heeded k (fun _ => 0) p) (ha : p.attempts[a]? = some y) (hj : y.pool = some j)
    (hy : y.phase = .waiting) (hear : y.ear ≠ .listening) :
    Heeded k (fun _ => 0) ((p.setEar a .off).setPhase a .arrived) := by
  refine ((h.setEar ha hj hear (by decide) fun _ => rfl).setPhase (attempts_setEar ha .off) hj
    .arrived (fun _ => rfl) nofun).mono fun look => ?_
  rw [hy]
  split
  · by_cases hcalled : y.ear = .called <;> cases look <;> simp [hcalled, AttemptPhase.before]
  · simp

theorem release (h : Heeded k (fun _ => 0) p) (ha : p.attempts[a]? = some y) (hj : y.pool = some j)
    (hy : y.phase = .leased c) : Heeded k (fun _ => 0) (p.release a j c) := by
  have hnoted := h.shrink j (f := fun x => { x with busy := x.busy.erase c }) (fun _ => rfl)
    fun _ _ _ => Nat.le_refl _
  -- Whoever has a connection listens to nothing, and nothing else happens to them.
  have finish {q : Pool} (hq : Heeded k (fun _ => 0) q)
      (heq : q.hushed.attempts = p.hushed.attempts) : Heeded k (fun _ => 0) (q.setPhase a .done) := by
    obtain ⟨z, hz, hphase, hpool⟩ := attempt_of_hushed heq ha
    have hear := hq.queues.off z (List.mem_of_getElem? hz) (by rw [hphase, hy]; rfl)
    refine (hq.setPhase hz (hpool.trans hj) .done (fun _ => hear) nofun).mono fun look => ?_
    rw [hphase, hy]
    split <;> simp [AttemptPhase.before]
  unfold Pool.release
  dsimp only
  split
  · refine finish ((hnoted.close c).callAnyway j) ?_
    rw [hushed_callOne, attempts_close]
    rfl
  · refine finish (hnoted.putIdle j c) ?_
    rw [hushed_callOne]
    rfl

theorem attemptStep (h : Heeded k (fun _ => 0) p) (hp : Sound p)
    (hsilent : p.shutDown = true → Silent p) (ha : p.attempts[a]? = some y)
    (hj : y.pool = some j) (action : Action) :
    Heeded k (fun _ => 0) (p.stepAttempt a j y.phase y.ear y.address action) := by
  refine stepAttempt_of (P := Heeded k fun _ => 0) h ?listen ?take ?goOn ?claim ?connected ?refuse
    ?lose ?wake ?fail ?quit ?release
  case listen => exact fun hy => h.listen hsilent ha hj hy
  case take => exact fun c hy => h.take ha hj hy c
  case goOn => exact fun x hpool hidle hy => h.goOn ha hj hy hpool hidle
  case claim => exact fun hy => h.claim ha hj hy
  case connected => exact fun c hy => h.connected hp ha hj hy
  case refuse => exact fun c e hy => h.refuse ha hj hy e
  case lose => exact fun _ c _ hy => h.lose ha hj hy
  case wake => exact fun hear hy => h.wake ha hj hy hear
  case fail => exact fun e hy => h.giveUp ha hj (fun look => by rw [hy]; cases look <;> rfl) _
  case quit => exact fun hy => h.giveUp ha hj (fun look => by rw [hy]; cases look <;> rfl) _
  case release => exact fun c hy => h.release ha hj hy

/-! ### Other steps -/

section WarmUps
variable {w : WarmUpId} {z : WarmUp}

theorem warm (h : Heeded k (fun _ => 0) p) : Heeded k (fun _ => 0) (p.warm w z) := by
  unfold Pool.warm
  split
  · split
    · exact h.same rfl rfl rfl rfl
    · next hgo =>
      have hroom : p.hasRoom z.pool = true := by
        simp only [Bool.or_eq_true, not_or, Bool.not_eq_true', Bool.not_eq_false] at hgo
        exact hgo.2
      refine ((h.begin hroom).mono fun look => ?_).same rfl rfl rfl rfl
      cases look <;> split <;> decide
  · exact h

theorem warmConnected (h : Heeded k (fun _ => 0) p) (hp : Sound p) (hw : p.warmUps[w]? = some z) :
    Heeded k (fun _ => 0) (p.warmConnected w z) := by
  unfold Pool.warmConnected
  split
  · next c hc =>
    have hnew := hp.idleTimes_of_connecting (openings_of_warmUp hw hc)
    have hidle := (h.setState c .opened (.inr hnew)).putIdle z.pool c
    exact hidle.same rfl rfl rfl rfl
  · exact h

theorem warmRefused (h : Heeded k (fun _ => 0) p) : Heeded k (fun _ => 0) (p.warmRefused w z) := by
  unfold Pool.warmRefused
  split
  · next c _ =>
    exact ((h.setState c .refused (.inl (by decide))).giveRoom z.pool).same rfl rfl rfl rfl
  · exact h

end WarmUps

theorem prune (h : Heeded k due p) : Heeded k due p.prune := by
  suffices hdropped : Heeded k due p.dropClosedIdle from hdropped.same rfl rfl rfl rfl
  have each (f : Pool → PoolId → ConnectionId → Bool) (ks : List PoolId) (q : Pool)
      (hq : Heeded k due q) : Heeded k due (ks.foldl (fun q j => q.modifyPool j fun x =>
        { x with idle := x.idle.filter (f q j) }) q) := by
    induction ks generalizing q with
    | nil => exact hq
    | cons j rest ih =>
      refine ih _ (hq.shrink j (fun _ => rfl) fun x _ look => Nat.add_le_add_right ?_ _)
      exact (List.filter_sublist.filter _).length_le
  exact each (fun q _ c => !q.socketClosed c) _ p h

/-- How much a connection has queued does not make it open. -/
theorem queue (h : Heeded k due p) (c : ConnectionId) {f : Socket → Socket}
    (hf : ∀ s, (f s).state = s.state) : Heeded k due (p.modifySocket c f) := by
  refine h.sockets rfl rfl rfl fun _ _ d _ hstate => ?_
  rw [state?, modifySocket, ← List.getElem?_map, map_modify_of_eq f _ hf, List.getElem?_map] at hstate
  exact hstate

/-- Nobody has been sent to a new address pool yet. -/
theorem create (h : Heeded k due p) (address : String) : Heeded k due (p.create address).2 := by
  refine ⟨h.queues.create address, fun look x hk hhalts => ?_⟩
  have ⟨y, hy, hpool, _⟩ := hhalts
  have hlt := h.queues.housed y hy k hpool
  exact h.bound look x ((List.getElem?_append_left hlt).symm.trans hk) hhalts

/-- Somebody new hears nothing. -/
theorem join (h : Heeded k due p) (hear : y.ear = .off)
    (hj : ∀ j, y.pool = some j → j < p.pools.length) :
    Heeded k due { p with attempts := p.attempts ++ [y] } := by
  refine ⟨h.queues.arrive hear hj, fun look x hk hhalts => ?_⟩
  have hbefore : p.Halts k look := by
    obtain ⟨z, hz, hpool, hlistens, hafter⟩ := hhalts
    obtain hz | hz := List.mem_append.1 hz
    · exact ⟨z, hz, hpool, hlistens, hafter⟩
    · rw [List.mem_singleton.1 hz, hear] at hlistens
      cases hlistens
  have hbound := h.bound look x hk hbefore
  simp only [called, seekers, List.countP_append] at hbound ⊢
  show (p.spare look x : Int) ≤ _
  omega

theorem arrive (h : Heeded k due p) (haddressed : Addressed p) (address : String) :
    Heeded k due (p.arrive address) := by
  have hsent := (haddressed.poolFor address).2.1
  have hpool : Heeded k due (p.poolFor address).2 := by
    unfold Pool.poolFor
    split
    · exact h
    · exact h.prune.create address
  unfold Pool.arrive
  split
  · exact h.join rfl nofun
  · refine hpool.join rfl fun j hj => ?_
    obtain rfl := Option.some.inj hj
    obtain ⟨x, hx, -⟩ := Option.map_eq_some_iff.1 hsent
    exact (List.getElem?_eq_some_iff.1 hx).1

theorem step (h : Heeded k (fun _ => 0) p) (hp : Sound p) (haddressed : Addressed p)
    (hsilent : p.shutDown = true → Silent p) (action : Action) :
    Heeded k (fun _ => 0) (p.step action) := by
  cases action with
  | arrive address => exact h.arrive haddressed address
  | listen a | take a _ | noneIdle a | claim a | connected a | refused a _ | wake a | timeOut a
  | release a | abandon a =>
    exact onAttempt_of (P := Heeded k fun _ => 0) h fun y j ha hj => h.attemptStep hp hsilent ha hj _
  | queue c =>
    refine onSocket_of (P := Heeded k fun _ => 0) h fun s _ => ?_
    split
    · exact h.queue c fun _ => rfl
    · exact h
  | write c => exact h.queue c fun _ => rfl
  | mark c =>
    refine onSocket_of (P := Heeded k fun _ => 0) h fun s _ => ?_
    split
    · exact h.setState c .closing (.inl (by decide))
    · exact h
  | free c =>
    refine onSocket_of (P := Heeded k fun _ => 0) h fun s _ => ?_
    split
    · exact (h.setState c .closed (.inl (by decide))).giveRoom s.pool
    · exact h
  | warm w => exact onWarmUp_of (P := Heeded k fun _ => 0) h fun z _ => h.warm
  | warmConnected w => exact onWarmUp_of (P := Heeded k fun _ => 0) h fun z hw => h.warmConnected hp hw
  | warmRefused w => exact onWarmUp_of (P := Heeded k fun _ => 0) h fun z _ => h.warmRefused
  | shutDown =>
    show Heeded k (fun _ => 0) p.beginShutDown
    cases hdown : p.shutDown with
    | true =>
      rw [beginShutDown, if_pos hdown]
      exact h
    | false =>
      obtain ⟨hqueues, hnobody⟩ := h.queues.beginShutDown haddressed hdown
      exact of_silent hqueues hnobody
  | prune => exact h.prune

end Heeded

/-! ### Runs -/

/-- What is known of a pool at every moment of a run. -/
structure InOrder (p : Pool) : Prop where
  sound : Sound p
  addressed : Addressed p
  heeded : ∀ k, Heeded k (fun _ => 0) p
  silent : p.shutDown = true → Silent p

namespace InOrder

theorem empty (config : PoolConfig) : InOrder { config := config } := by
  refine ⟨sound_empty config, addressed_empty config, fun k => ⟨⟨?_, ?_, ?_, ?_⟩, ?_⟩, ?_⟩
  · exact fun j x hx => by simp at hx
  · exact fun j x hx => by simp at hx
  · exact fun y hy => by simp at hy
  · exact fun y hy => by simp at hy
  · exact fun look x hx => by simp at hx
  · exact nofun

theorem step (h : InOrder p) (action : Action) : InOrder (p.step action) := by
  refine ⟨h.sound.step action, h.addressed.step h.sound action,
    fun k => (h.heeded k).step h.sound h.addressed h.silent action, ?_⟩
  exact silent_step (h.heeded 0).queues h.addressed h.silent action

theorem run (h : InOrder p) (actions : List Action) : InOrder (p.run actions) := by
  induction actions generalizing p with
  | nil => exact h
  | cons action rest ih => exact ih (h.step action)

end InOrder

/-! ### What a timeout says -/

/-- How many attempts are on their way to what there is: they have still to look, or were
called and look next. -/
def heading (p : Pool) (k : PoolId) : Nat :=
  p.seekers .room k +
    p.attempts.countP fun y => y.pool = some k && y.ear = .called && !y.phase.connects

/-- How many attempts hold a call while they are connecting, and look no more. -/
def detained (p : Pool) (k : PoolId) : Nat :=
  p.attempts.countP fun y => y.pool = some k && y.ear = .called && y.phase.connects

theorem called_add_seekers (p : Pool) (k : PoolId) :
    p.called k + p.seekers .room k = p.heading k + p.detained k := by
  have hcalled : p.called k =
      (p.attempts.countP fun y => y.pool = some k && y.ear = .called && !y.phase.connects) +
        p.attempts.countP fun y => y.pool = some k && y.ear = .called && y.phase.connects := by
    rw [called, List.countP_eq_countP_filter_add _ _ fun y => !y.phase.connects]
    simp only [List.countP_filter, Bool.not_not]
  simp only [heading, detained]
  omega

/-- The deadline of an attempt fires while it waits and has not been called. -/
theorem of_timeOut {e : TransportError} (ha : p.attempts[a]? = some y) (hy : y.phase = .waiting)
    (hfails : (p.step (.timeOut a)).phase? a = some (.failed e)) :
    ∃ k, y.pool = some k ∧ y.ear = .listening ∧ p.step (.timeOut a) =
      (p.hangUp a).setPhase a (.failed (.poolTimeout y.address p.config.acquireTimeout.toNat)) := by
  have hstep : p.step (.timeOut a) = p.onAttempt a (.timeOut a) := rfl
  have hstill : p.step (.timeOut a) ≠ p := by
    intro hsame
    rw [hsame, phase?, ha, Option.map_some, hy] at hfails
    cases hfails
  unfold onAttempt at hstep
  rw [ha] at hstep
  dsimp only at hstep
  split at hstep
  · next k hk =>
    rw [hy] at hstep
    simp only [stepAttempt] at hstep
    split at hstep
    · next hear => exact ⟨k, hk, hear, hstep⟩
    · exact absurd hstep hstill
  · exact absurd hstep hstill

/-- **Nobody gives up waiting beside a connection or room that nobody is after, unless the call
for it is held by somebody who is connecting.** Whatever is idle and open at the address, and
whatever room there is, is matched by as many attempts that are on their way to it or hold a call;
if there are none of either kind, the address is exhausted.

To drop a lease is one step here (`release`): the connection is idle and the call for it is made
in the same moment. A deadline that passes between the two finds a connection that nobody has been
called for yet. -/
theorem timeOut_exhausted (config : PoolConfig) (actions : List Action) (a : AttemptId)
    (e : TransportError) :
    let p := run { config := config } actions
    p.phase? a = some .waiting → (p.step (.timeOut a)).phase? a = some (.failed e) →
    ∃ (y : Attempt) (k : PoolId) (x : AddressPool), p.attempts[a]? = some y ∧ y.pool = some k ∧
      p.pools[k]? = some x ∧ x.address = y.address ∧
      e = .poolTimeout y.address config.acquireTimeout.toNat ∧
      (p.openIdle x).length + (max config.maxSize.toNat 1 - x.live) ≤ p.heading k + p.detained k ∧
      (p.heading k = 0 → p.detained k = 0 →
        p.openIdle x = [] ∧ x.live = max config.maxSize.toNat 1) := by
  intro p hwaits hfails
  have horder : InOrder p := (InOrder.empty config).run actions
  have hconfig : p.config = config := config_run (sound_empty config) actions
  have hlimit : p.limit = max config.maxSize.toNat 1 := by rw [limit, hconfig]
  obtain ⟨y, hy, hphase⟩ := Option.map_eq_some_iff.1 hwaits
  obtain ⟨k, hk, hear, hstep⟩ := of_timeOut hy hphase hfails
  obtain ⟨x, hx, haddress⟩ := Option.map_eq_some_iff.1
    (horder.addressed.sent y (List.mem_of_getElem? hy) k hk)
  have hqueues := (horder.heeded k).queues
  have hend : (p.step (.timeOut a)).phase? a =
      some (.failed (.poolTimeout y.address config.acquireTimeout.toNat)) := by
    rw [hstep, phase?, attempts_setPhase (hqueues.attempts_hangUp hy), hconfig]
    rfl
  have hbound := (horder.heeded k).bound .room x hx
    ⟨y, List.mem_of_getElem? hy, hk, hear, by rw [hphase]; rfl⟩
  have hsplit := p.called_add_seekers k
  simp only [spare, hlimit] at hbound
  have hlive := hlimit ▸ horder.sound.bounded k x hx
  refine ⟨y, k, x, hy, hk, hx, haddress, ?_, by omega, fun hheading hdetained => ⟨?_, by omega⟩⟩
  · simpa using hfails.symm.trans hend
  · exact List.eq_nil_of_length_eq_zero (by omega)

/-- With the only connection leased there is nothing to wait for but its return. -/
theorem timeOut_exhausted_alone :
    let config : PoolConfig := { minSize := 0, maxSize := 1 }
    let actions : List Action := [.arrive "a:1", .listen 0, .noneIdle 0, .claim 0, .connected 0,
      .arrive "a:1", .listen 1, .noneIdle 1, .claim 1]
    let p := run { config := config } actions
    let e : TransportError := .poolTimeout "a:1" config.acquireTimeout.toNat
    p.phase? 1 = some .waiting ∧ (p.step (.timeOut 1)).phase? 1 = some (.failed e) ∧
      p.heading 0 = 0 ∧ p.detained 0 = 0 ∧
      ∃ x, p.pools[0]? = some x ∧ p.openIdle x = [] ∧ x.live = 1 := by
  intro config actions p e
  have hwaits : p.phase? 1 = some .waiting := by decide +kernel
  have hfails : (p.step (.timeOut 1)).phase? 1 = some (.failed e) := by decide +kernel
  have hheading : p.heading 0 = 0 := by decide +kernel
  have hdetained : p.detained 0 = 0 := by decide +kernel
  obtain ⟨y, k, x, hy, hk, hx, -, -, -, hexhausted⟩ :=
    timeOut_exhausted config actions 1 e hwaits hfails
  have hpool : (p.attempts[1]?).bind Attempt.pool = some 0 := by decide +kernel
  rw [hy, Option.bind_some, hk] at hpool
  obtain rfl := Option.some.inj hpool
  obtain ⟨hidle, hlive⟩ := hexhausted hheading hdetained
  have hone : max config.maxSize.toNat 1 = 1 := by decide
  exact ⟨hwaits, hfails, hheading, hdetained, x, hx, hidle, hlive.trans hone⟩

/-- Three want a connection where there is room for two: the first has one, the second is
connecting, the third waits. The first gives its connection back, and the call goes to the second,
who has listened longest and is still connecting. So the third gives up beside an idle connection
that nobody is after. -/
theorem timeOut_beside_idle :
    let config : PoolConfig := { minSize := 0, maxSize := 2 }
    let actions : List Action := [.arrive "a:1", .listen 0, .noneIdle 0, .claim 0, .connected 0,
      .arrive "a:1", .listen 1, .noneIdle 1, .claim 1, .arrive "a:1", .listen 2, .noneIdle 2,
      .claim 2, .release 0]
    let p := run { config := config } actions
    p.phase? 2 = some .waiting ∧
      (p.step (.timeOut 2)).phase? 2 =
        some (.failed (.poolTimeout "a:1" config.acquireTimeout.toNat)) ∧
      p.stats "a:1" = some ⟨2, 1, 1⟩ ∧ p.pools.map AddressPool.idle = [[0]] ∧
      p.socketUsable 0 = true ∧ p.heading 0 = 0 ∧ p.detained 0 = 1 := by
  decide +kernel

end Pool
end RemoteCall.Transport
