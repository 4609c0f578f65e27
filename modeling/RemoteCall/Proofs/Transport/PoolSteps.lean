import RemoteCall.Transport.Client

/-! What a client does to its pool.

A step of a client is at most one step of its pool (`turns_step`), so whatever is kept by the
steps of a pool is kept by those of a client. A caller goes away from the pool only with the call
that it made. -/
namespace RemoteCall.Transport

/-- The attempt that a call has sent to the pool and not ended. -/
def CallPhase.attempt? : CallPhase → Option AttemptId
  | acquiring a | registered a _ _ | checked a _ _ | queued a _ _ => some a
  | starting | waiting _ _ | ended _ | abandoned => none

namespace Client

variable {cl : Client} {n : CallId} {call : ClientCall} {c : ConnectionId}

/-- Whether the pool takes at most one step, and nobody but a call goes away from it. -/
def Turns (action : Action) (cl next : Client) : Prop :=
  next.pool = cl.pool ∨ ∃ b, next.pool = cl.pool.step b ∧ ∀ a, b = .abandon a →
    ∃ n call, action = .abandon n ∧ cl.calls[n]? = some call ∧ call.phase.attempt? = some a

section Turns
variable {action : Action}

theorem turns_refl (cl : Client) : Turns action cl cl := .inl rfl

theorem turns_onCall {f : Client → CallId → ClientCall → Client}
    (hf : ∀ call, cl.calls[n]? = some call → Turns action cl (f cl n call)) :
    Turns action cl (cl.onCall n f) := by
  unfold onCall
  split
  · next call hn => exact hf call hn
  · exact turns_refl cl

theorem turns_proceed : Turns action cl (cl.proceed n call) := by
  unfold proceed
  split
  · unfold begin
    split
    · exact .inl rfl
    · split
      · exact .inl rfl
      · exact .inr ⟨.arrive call.address, rfl, nofun⟩
  · unfold enter
    split <;> exact .inl rfl
  · next a c t _ =>
    split
    · exact .inr ⟨.release a, rfl, nofun⟩
    · exact .inl rfl
  · next a c t _ =>
    unfold enqueue
    dsimp only
    split
    · exact .inl rfl
    · split
      · exact .inr ⟨.queue c, rfl, nofun⟩
      · exact .inl rfl
  · next a c t _ => exact .inr ⟨.release a, rfl, nofun⟩
  · unfold look
    split <;> exact .inl rfl
  · exact .inl rfl
  · exact .inl rfl

theorem turns_refuseFrame : Turns action cl (cl.refuseFrame n call) := by
  unfold refuseFrame
  split
  · next a c t _ =>
    split
    · exact .inr ⟨.release a, rfl, nofun⟩
    · exact .inl rfl
  · exact .inl rfl

theorem turns_expire : Turns action cl (cl.expire n call) := by
  unfold expire
  split
  · dsimp only
    split <;> exact .inl rfl
  · exact .inl rfl

theorem turns_giveUp (hn : cl.calls[n]? = some call) :
    Turns (.abandon n) cl (cl.giveUp n call) := by
  have goes {a : AttemptId} (ha : call.phase.attempt? = some a) (b : AttemptId)
      (hb : Pool.Action.abandon a = .abandon b) : ∃ m other, Action.abandon n = .abandon m ∧
        cl.calls[m]? = some other ∧ other.phase.attempt? = some b := by
    obtain rfl := Pool.Action.abandon.inj hb
    exact ⟨n, call, rfl, hn, ha⟩
  unfold giveUp
  split
  · next a hphase =>
    split
    · exact .inr ⟨.abandon a, rfl, goes (by rw [hphase]; rfl)⟩
    · exact .inr ⟨.abandon a, rfl, goes (by rw [hphase]; rfl)⟩
    · exact .inl rfl
  · next a c t hphase => exact .inr ⟨.abandon a, rfl, goes (by rw [hphase]; rfl)⟩
  · exact .inl rfl
  · exact .inl rfl

theorem turns_mark (w : Wire) (reason : CallError) : Turns action cl (cl.mark c w reason) := by
  unfold mark
  split
  · exact .inr ⟨.mark c, rfl, nofun⟩
  · exact .inl rfl

/-- **A step of a client is at most one step of its pool.** -/
theorem turns_step (cl : Client) (action : Action) : Turns action cl (cl.step action) := by
  cases action with
  | call address wish => exact .inl rfl
  | proceed n => exact turns_onCall fun _ _ => turns_proceed
  | writerGone n => exact turns_onCall fun _ _ => turns_refuseFrame
  | timeOut n => exact turns_onCall fun _ _ => turns_expire
  | abandon n => exact turns_onCall fun _ hn => turns_giveUp hn
  | pool b =>
    unfold step
    dsimp only
    split
    · next hown =>
      refine .inr ⟨b, rfl, ?_⟩
      rintro a rfl
      cases hown
    · exact .inl rfl
  | receive c chunk =>
    unfold step receive
    dsimp only
    split <;> exact .inl rfl
  | handle c =>
    unfold step handle
    dsimp only
    split
    · unfold takeItem
      split <;> exact .inl rfl
    · split
      · exact turns_mark _ _
      · exact .inl rfl
  | endOfStream c | readFails c reason =>
    unfold step stopReading
    dsimp only
    split
    · exact turns_mark _ _
    · exact .inl rfl
  | write c =>
    unfold step write
    dsimp only
    split
    · exact .inr ⟨.write c, rfl, nofun⟩
    · exact .inl rfl
  | writeFails c reason =>
    unfold step failWriting
    dsimp only
    split
    · exact turns_mark _ _
    · exact .inl rfl
  | fail c =>
    unfold step fail
    dsimp only
    split <;> exact .inl rfl
  | shutPool =>
    unfold step
    dsimp only
    split
    · exact .inr ⟨.shutDown, rfl, nofun⟩
    · exact .inl rfl
  | shutDown | failAll =>
    unfold step
    dsimp only
    split <;> exact .inl rfl

end Turns

end Client
end RemoteCall.Transport
