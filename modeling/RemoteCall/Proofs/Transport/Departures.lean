import RemoteCall.Proofs.Pool.Ceiling
import RemoteCall.Proofs.Transport.Attendance

/-! What callers that go away leave behind at a client.

Whoever waits for a connection leaves nothing. Whoever goes away while a connection is being made
leaves it behind, with its room taken for good; nobody else does (`lost_step`). And whoever goes
away with a ticket leaves the entry in the table, until an answer comes or its connection ends. So
the books of a client are those of its calls and of the departures there were (`Traced`). -/
namespace RemoteCall.Transport.Client

variable {cl : Client} {n : CallId} {c : ConnectionId} {d : Departure} {left : List Departure}

/-! ### One departure -/

/-- The places where a call waits for something, and what may be left behind there. -/
theorem of_departure? (hd : cl.departure? n = some d) :
    ∃ call, cl.calls[n]? = some call ∧
      ((∃ a, call.phase = .acquiring a ∧ cl.pool.phase? a = some .waiting ∧ d = {}) ∨
        (∃ a c, call.phase = .acquiring a ∧ cl.pool.phase? a = some (.connecting c) ∧
          d = { connection := some c }) ∨
        (∃ a c t, call.phase = .checked a c t ∧ d = { ticket := some t }) ∨
        ∃ c t, call.phase = .waiting c t ∧ d = { ticket := some t }) := by
  unfold departure? at hd
  split at hd
  · next a hphase =>
    obtain ⟨call, hn, hphase⟩ := Option.map_eq_some_iff.1 hphase
    split at hd
    · next hwaits => exact ⟨call, hn, .inl ⟨a, hphase, hwaits, (Option.some.inj hd).symm⟩⟩
    · next c hconnecting =>
      exact ⟨call, hn, .inr (.inl ⟨a, c, hphase, hconnecting, (Option.some.inj hd).symm⟩)⟩
    · cases hd
  · next a c t hphase =>
    obtain ⟨call, hn, hphase⟩ := Option.map_eq_some_iff.1 hphase
    exact ⟨call, hn, .inr (.inr (.inl ⟨a, c, t, hphase, (Option.some.inj hd).symm⟩))⟩
  · next c t hphase =>
    obtain ⟨call, hn, hphase⟩ := Option.map_eq_some_iff.1 hphase
    exact ⟨call, hn, .inr (.inr (.inr ⟨c, t, hphase, (Option.some.inj hd).symm⟩))⟩
  · cases hd

/-- Nobody goes away from a call that does not wait. -/
theorem abandon_of_none (hd : cl.departure? n = none) : cl.step (.abandon n) = cl := by
  show cl.onCall n giveUp = cl
  unfold onCall
  split
  · next call hn =>
    unfold giveUp
    simp only [departure?, hn, Option.map_some] at hd
    split
    · next hphase =>
      simp only [hphase] at hd
      split <;> simp_all
    · next hphase => simp [hphase] at hd
    · next hphase => simp [hphase] at hd
    · rfl
  · rfl

theorem step_abandon {call : ClientCall} (hn : cl.calls[n]? = some call) :
    cl.step (.abandon n) = cl.giveUp n call := by
  show cl.onCall n giveUp = _
  rw [onCall, hn]

/-- Whoever goes away goes away from the pool as well, if the call had sent an attempt there. -/
theorem pool_abandon (hd : cl.departure? n = some d) {call : ClientCall}
    (hn : cl.calls[n]? = some call) : (cl.step (.abandon n)).pool =
      match call.phase.attempt? with
      | some a => cl.pool.step (.abandon a)
      | none => cl.pool := by
  rw [step_abandon hn, giveUp]
  obtain ⟨other, hother, hplace⟩ := of_departure? hd
  obtain rfl := Option.some.inj (hn.symm.trans hother)
  obtain ⟨a, hphase, hwaits, -⟩ | ⟨a, e, hphase, hconnecting, -⟩ | ⟨a, e, t, hphase, -⟩ |
    ⟨e, t, hphase, -⟩ := hplace
  · rw [hphase]
    simp only [hwaits]
    rfl
  · rw [hphase]
    simp only [hconnecting]
    rfl
  · rw [hphase]
    rfl
  · rw [hphase]
    rfl

/-- **Whoever goes away gives its connection back.** -/
theorem hand_abandon {gone : TicketId → Prop} (h : cl.Attended gone) (hd : cl.departure? n = some d)
    {call : ClientCall} (hn : cl.calls[n]? = some call) {a : AttemptId}
    (ha : call.phase.attempt? = some a) {x : Attempt}
    (hx : (cl.step (.abandon n)).pool.attempts[a]? = some x) : x.phase.hand = .nothing := by
  rw [pool_abandon hd hn, ha] at hx
  exact Pool.hand_abandon h.sound hx

/-- Whoever goes away takes no entry out of the table. -/
theorem calls_abandon (cl : Client) (n : CallId) :
    (cl.step (.abandon n)).pending.calls = cl.pending.calls := by
  show (cl.onCall n giveUp).pending.calls = _
  unfold onCall
  split
  · unfold giveUp
    split
    · split <;> rfl
    · rfl
    · rfl
    · rfl
  · rfl

/-- Only a connection that is being made is left behind. -/
theorem connecting_of_departure? {gone : TicketId → Prop} (h : cl.Attended gone)
    (hd : cl.departure? n = some d) (hc : d.connection = some c) :
    cl.pool.state? c = some .connecting := by
  obtain ⟨call, -, ⟨a, -, -, rfl⟩ | ⟨a, e, -, hphase, rfl⟩ | ⟨a, e, t, -, rfl⟩ | ⟨e, t, -, rfl⟩⟩ :=
    of_departure? hd
  · cases hc
  · obtain rfl := Option.some.inj hc
    obtain ⟨x, hx, hphase⟩ := Option.map_eq_some_iff.1 hphase
    exact h.sound.state?_of_openings (Pool.openings_of_attempt hx hphase)
  · cases hc
  · cases hc

theorem lost_abandon {gone : TicketId → Prop} (h : cl.Attended gone)
    (hd : cl.departure? n = some d) : (cl.step (.abandon n)).pool.state? c = some .lost ↔
      cl.pool.state? c = some .lost ∨ d.connection = some c := by
  obtain ⟨call, hn, hplace⟩ := of_departure? hd
  rw [pool_abandon hd hn]
  obtain ⟨a, hphase, hwaits, rfl⟩ | ⟨a, e, hphase, hconnecting, rfl⟩ | ⟨a, e, t, hphase, rfl⟩ |
    ⟨e, t, hphase, rfl⟩ := hplace
  · rw [hphase]
    refine (Pool.lost_step h.sound (.abandon a)).trans (or_congr_right ?_)
    simp [Pool.leaves_abandon, hwaits]
  · rw [hphase]
    refine (Pool.lost_step h.sound (.abandon a)).trans (or_congr_right ?_)
    simp [Pool.leaves_abandon, hconnecting]
  · -- The connection of a call that is in the table is made.
    have hpast := h.past call (List.mem_of_getElem? hn) a t (by rw [hphase]; rfl)
      (by rw [hphase]; rfl)
    rw [hphase]
    refine (Pool.lost_step h.sound (.abandon a)).trans (or_congr_right ?_)
    simp [hpast.not_leaves]
  · rw [hphase]
    simp [CallPhase.attempt?]

/-- **A connection is left behind by a departure**, and by nothing else that happens to a client. -/
theorem lost_step {gone : TicketId → Prop} (h : cl.Attended gone) (action : Action) :
    (cl.step action).pool.state? c = some .lost ↔
      cl.pool.state? c = some .lost ∨ ∃ d, cl.leaves? action = some d ∧ d.connection = some c := by
  by_cases habandon : ∃ n, action = .abandon n
  · obtain ⟨n, rfl⟩ := habandon
    cases hd : cl.departure? n with
    | none =>
      rw [abandon_of_none hd]
      simp [leaves?, hd]
    | some d => simp [lost_abandon h hd, leaves?, hd]
  · have hnothing : cl.leaves? action = none := by
      cases action with
      | abandon n => exact absurd ⟨n, rfl⟩ habandon
      | _ => rfl
    rw [hnothing]
    rcases turns_step cl action with hsame | ⟨b, hstep, hown⟩
    · rw [hsame]
      simp
    · rw [hstep, Pool.lost_step h.sound b]
      refine or_congr_right ⟨?_, nofun⟩
      rintro ⟨a, rfl, -⟩
      obtain ⟨n, -, rfl, -⟩ := hown a rfl
      exact absurd ⟨n, rfl⟩ habandon

/-! ### All departures -/

/-- How many connections of an address pool were left behind. -/
def lostAt (cl : Client) (left : List Departure) (k : PoolId) : Nat :=
  (left.filterMap Departure.connection).countP fun c => cl.pool.home? c = some k

/-- What is left behind was left behind by the departures there were. -/
structure Traced (left : List Departure) (cl : Client) : Prop where
  attended : cl.Attended fun t => ∃ d ∈ left, d.ticket = some t
  lost : ∀ c, cl.pool.state? c = some .lost ↔ c ∈ left.filterMap Departure.connection
  once : (left.filterMap Departure.connection).Nodup

theorem traced_new (config : TransportConfig) : Traced [] (new config) where
  attended := attended_new _ config
  lost c := by simp [new, Pool.state?]
  once := List.nodup_nil

namespace Traced

variable (h : cl.Traced left)
include h

/-- A departure that leaves nothing behind. -/
theorem nothing : cl.Traced (left ++ [({} : Departure)]) where
  attended := h.attended.mono fun _ ⟨d, hd, ht⟩ => ⟨d, List.mem_append_left _ hd, ht⟩
  lost c := by simpa using h.lost c
  once := by simpa using h.once

/-- **The books stay those of the calls and the departures**, whatever happens. -/
theorem step (action : Action) : (cl.step action).Traced (left ++ (cl.leaves? action).toList) where
  attended := by
    refine (h.attended.mono fun _ ⟨d, hd, ht⟩ => ⟨d, List.mem_append_left _ hd, ht⟩).step action
      fun d t hd ht => ⟨d, List.mem_append_right _ ?_, ht⟩
    rw [hd]
    exact List.mem_cons_self
  lost c := by
    rw [lost_step h.attended, h.lost, List.filterMap_append, List.mem_append]
    simp
  once := by
    rw [List.filterMap_append]
    refine List.nodup_append.2 ⟨h.once, ?_, fun c hc e he hce => ?_⟩
    · cases cl.leaves? action with
      | none => exact List.nodup_nil
      | some d => cases hd : d.connection <;> simp [hd]
    · subst hce
      obtain ⟨d, hd, hconnection⟩ := List.mem_filterMap.1 he
      have hleaves : cl.leaves? action = some d := by simpa using hd
      obtain ⟨n, rfl⟩ : ∃ n, action = .abandon n := by
        cases action with
        | abandon n => exact ⟨n, rfl⟩
        | _ => cases hleaves
      have hconnecting := connecting_of_departure? h.attended hleaves hconnection
      exact nomatch hconnecting.symm.trans ((h.lost c).2 hc)

/-- **What an address has counted** is not closed yet, is being made, or was left behind. -/
theorem live {k : PoolId} {x : AddressPool} (hk : cl.pool.pools[k]? = some x) :
    x.live = cl.pool.unclosed k + cl.pool.connects k + cl.lostAt left k := by
  have hlive := h.attended.sound.balanced k x hk
  have hroom := cl.pool.roomTaken_eq_add_lost k
  have hlost : cl.lostAt left k = cl.pool.inState k .lost := by
    rw [lostAt, List.countP_eq_length_filter]
    refine Pool.length_eq_countP (h.once.filter _) fun c => ?_
    rw [List.mem_filter, ← h.lost, Pool.state?, Pool.home?]
    cases cl.pool.sockets[c]? <;> simp [and_comm]
  simp only [reduceCtorEq, if_false] at hlive
  omega

/-- **Whoever is in the table** waits, or was left behind. -/
theorem entry {e : PendingCall} (he : e ∈ cl.pending.calls) :
    (∃ call ∈ cl.calls, call.phase.ticket? = some e.ticket) ∨ ∃ d ∈ left, d.ticket = some e.ticket :=
  (h.attended.kept e he).imp_left And.right

end Traced
end RemoteCall.Transport.Client
