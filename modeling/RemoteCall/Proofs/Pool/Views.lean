import RemoteCall.Proofs.Modified
import RemoteCall.Transport.Pool.Step

/-! What can be counted in a pool of connections, and what one change does to the counts.

The steps of a pool change one entry of one of its lists at a time. Every count here adds
up over one list, so a change of one entry moves it by what that entry weighs before and
after (`countP_modify`, `count_flatMap_modify`).

Calls are left out of all counts: who waits, and what an attempt has heard, may change
without anything else (`hushed`). -/
namespace RemoteCall.Transport

/-! ### Without calls -/

/-- An address pool without anybody who waits for it. -/
def AddressPool.hushed (x : AddressPool) : AddressPool :=
  { x with spareCall := false, waiting := [] }

/-- An attempt that has heard nothing. -/
def Attempt.hushed (x : Attempt) : Attempt := { x with ear := .off }

namespace Pool

/-- A pool without its calls. -/
def hushed (p : Pool) : Pool :=
  { p with
    pools := p.pools.map AddressPool.hushed
    attempts := p.attempts.map Attempt.hushed }

theorem hushed_modifyPool (p : Pool) (k : PoolId) {f : AddressPool → AddressPool}
    (g : AddressPool → AddressPool) (h : ∀ x, (f x).hushed = g x.hushed) :
    (p.modifyPool k f).hushed = p.hushed.modifyPool k g := by
  simp only [hushed, modifyPool, map_modify f g AddressPool.hushed h]

theorem hushed_modifyAttempt (p : Pool) (a : AttemptId) {f : Attempt → Attempt}
    (g : Attempt → Attempt) (h : ∀ x, (f x).hushed = g x.hushed) :
    (p.modifyAttempt a f).hushed = p.hushed.modifyAttempt a g := by
  simp only [hushed, modifyAttempt, map_modify f g Attempt.hushed h]

/-- A change of who waits, or of the spare call, is not seen. -/
theorem hushed_quietly (p : Pool) (k : PoolId) {f : AddressPool → AddressPool}
    (h : ∀ x, (f x).hushed = x.hushed) : (p.modifyPool k f).hushed = p.hushed := by
  rw [hushed_modifyPool p k id h]
  simp [modifyPool]

@[simp] theorem hushed_setEar (p : Pool) (a : AttemptId) (ear : Ear) :
    (p.setEar a ear).hushed = p.hushed := by
  refine (hushed_modifyAttempt p a id ?_).trans ?_
  · exact fun _ => rfl
  · simp [modifyAttempt]

@[simp] theorem hushed_callOne (p : Pool) (k : PoolId) : (p.callOne k).hushed = p.hushed := by
  unfold callOne
  split
  · rfl
  · split
    · exact hushed_quietly p k fun _ => rfl
    · rw [hushed_setEar]
      exact hushed_quietly p k fun _ => rfl

@[simp] theorem hushed_callAll (p : Pool) (k : PoolId) : (p.callAll k).hushed = p.hushed := by
  have called (as : List AttemptId) (q : Pool) :
      (as.foldl (fun p a => p.setEar a .calledWithAll) q).hushed = q.hushed := by
    induction as generalizing q with
    | nil => rfl
    | cons a rest ih => rw [List.foldl_cons, ih, hushed_setEar]
  unfold callAll
  split
  · rfl
  · rw [called]
    exact hushed_quietly p k fun _ => rfl

@[simp] theorem hushed_hangUp (p : Pool) (a : AttemptId) : (p.hangUp a).hushed = p.hushed := by
  unfold hangUp
  split
  · rfl
  · split
    · refine (hushed_quietly (p.setEar a .off) _ ?_).trans (hushed_setEar p a .off)
      exact fun _ => rfl
    · rw [hushed_callOne, hushed_setEar]
    · exact hushed_setEar p a .off

@[simp] theorem hushed_startListening (p : Pool) (a : AttemptId) (k : PoolId) :
    (p.startListening a k).hushed = p.hushed := by
  unfold startListening
  split
  · rfl
  · split
    · rw [hushed_setEar]
      exact hushed_quietly p k fun _ => rfl
    · rw [hushed_setEar]
      exact hushed_quietly p k fun _ => rfl

/-- Calls do not get in the way of a change of phase. -/
theorem hushed_setPhase (p : Pool) (a : AttemptId) (phase : AttemptPhase) :
    (p.setPhase a phase).hushed = p.hushed.setPhase a phase :=
  hushed_modifyAttempt p a _ fun _ => rfl

/-! ### Counts -/

/-- How often a connection is idle, over all address pools that ever were. -/
def idleTimes (p : Pool) (c : ConnectionId) : Nat := (p.pools.flatMap AddressPool.idle).count c

/-- How many attempts have leased a connection. -/
def leases (p : Pool) (c : ConnectionId) : Nat :=
  p.attempts.countP fun x => x.phase = .leased c

/-- How many attempts and background openings are connecting a connection. -/
def openings (p : Pool) (c : ConnectionId) : Nat :=
  (p.attempts.countP fun x => x.phase = .connecting c)
    + p.warmUps.countP fun x => x.connecting = some c

/-- How many connections of an address pool are in a state in which they take room. -/
def roomTaken (p : Pool) (k : PoolId) : Nat :=
  p.sockets.countP fun s => s.pool = k && s.takesRoom

/-- The address pool that a connection belongs to. -/
def home? (p : Pool) (c : ConnectionId) : Option PoolId := (p.sockets[c]?).map Socket.pool

section Frame
variable (p : Pool) (k : PoolId) (f : AddressPool → AddressPool) (c : ConnectionId)

@[simp] theorem roomTaken_modifyPool (j : PoolId) :
    (p.modifyPool k f).roomTaken j = p.roomTaken j := rfl

@[simp] theorem limit_modifyPool : (p.modifyPool k f).limit = p.limit := rfl

@[simp] theorem leases_modifyPool : (p.modifyPool k f).leases c = p.leases c := rfl

@[simp] theorem openings_modifyPool : (p.modifyPool k f).openings c = p.openings c := rfl

@[simp] theorem state?_modifyPool : (p.modifyPool k f).state? c = p.state? c := rfl

@[simp] theorem home?_modifyPool : (p.modifyPool k f).home? c = p.home? c := rfl

end Frame

/-- An address pool that does not exist is not changed. -/
theorem modifyPool_of_none {p : Pool} {k : PoolId} (hk : p.pools[k]? = none)
    (f : AddressPool → AddressPool) : p.modifyPool k f = p := by
  rw [modifyPool, List.modify_eq_self (by simpa using hk)]

theorem countDown_of_pos {n : Nat} (h : 0 < n) : countDown n = n - 1 := if_neg (by omega)

/-! ### Steps that are possible -/

section Possible
variable {p : Pool} {P : Pool → Prop}

/-- Only an attempt that was sent to an address pool takes a step. -/
theorem onAttempt_of (hp : P p) {a : AttemptId} {action : Action}
    (hstep : ∀ x k, p.attempts[a]? = some x → x.pool = some k →
      P (p.stepAttempt a k x.phase x.ear x.address action)) : P (p.onAttempt a action) := by
  unfold onAttempt
  split
  · next x ha =>
    split
    · next k hk => exact hstep x k ha hk
    · exact hp
  · exact hp

/-- What a step of an attempt can be, by how far the attempt has come. -/
theorem stepAttempt_of {a : AttemptId} {k : PoolId} {phase : AttemptPhase} {ear : Ear}
    {address : String} {action : Action} (still : P p)
    (listen : phase = .arrived → P (p.listen a k))
    (take : ∀ c, phase = .looking → P (p.take a k c))
    (goOn : ∀ x, p.pools[k]? = some x → x.idle = [] → phase = .looking → P (p.setPhase a .claiming))
    (claim : phase = .claiming → P (p.claim a k))
    (connected : ∀ c, phase = .connecting c → P ((p.setState c .opened).lease a k c))
    (refuse : ∀ c e, phase = .connecting c → P (p.refuse a k c e))
    (lose : ∀ b c, action = .abandon b → phase = .connecting c →
      P (((p.setState c .lost).hangUp a).setPhase a .done))
    (wake : ear ≠ .listening → phase = .waiting → P ((p.setEar a .off).setPhase a .arrived))
    (fail : ∀ e, phase = .waiting → P ((p.hangUp a).setPhase a (.failed e)))
    (quit : phase = .waiting → P ((p.hangUp a).setPhase a .done))
    (release : ∀ c, phase = .leased c → P (p.release a k c)) :
    P (p.stepAttempt a k phase ear address action) := by
  unfold stepAttempt
  split
  · exact listen rfl
  · exact take _ rfl
  · split
    · next x hk =>
      split
      · next hidle => exact goOn x hk (List.isEmpty_iff.1 hidle) rfl
      · exact still
    · exact still
  · exact claim rfl
  · exact connected _ rfl
  · exact refuse _ _ rfl
  · split
    · exact still
    · next hcalled =>
      simp only [Bool.or_eq_true, decide_eq_true_eq, not_or] at hcalled
      exact wake hcalled.2 rfl
  · split
    · exact fail _ rfl
    · exact still
  · exact release _ rfl
  · exact release _ rfl
  · exact quit rfl
  · exact lose _ _ rfl rfl
  · exact still

theorem onWarmUp_of (hp : P p) {w : WarmUpId} {f : Pool → WarmUpId → WarmUp → Pool}
    (hstep : ∀ y, p.warmUps[w]? = some y → P (f p w y)) : P (p.onWarmUp w f) := by
  unfold onWarmUp
  split
  · next y hw => exact hstep y hw
  · exact hp

theorem onSocket_of (hp : P p) {c : ConnectionId} {f : Socket → Pool}
    (hstep : ∀ s, p.sockets[c]? = some s → P (f s)) : P (p.onSocket c f) := by
  unfold onSocket
  split
  · next s hs => exact hstep s hs
  · exact hp

end Possible

end Pool
end RemoteCall.Transport
