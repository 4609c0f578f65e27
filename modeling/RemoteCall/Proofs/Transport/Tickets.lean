import RemoteCall.Proofs.Pool.Views
import RemoteCall.Transport.Client

/-! Whose answer a ticket holds.

A call and its entry in the table of pending calls know each other by the request id alone;
the answer goes the other way, by the ticket. `Tickets` says that the two ways agree: an
entry's ticket is held by no call with another id, so an answer that fits an id lands with a
call of that id (`Tickets.settle`). -/
namespace RemoteCall.Transport

/-- The ticket that a call holds. -/
def CallPhase.ticket? : CallPhase → Option TicketId
  | registered _ _ t | checked _ _ t | queued _ _ t | waiting _ t => some t
  | starting | acquiring _ | ended _ | abandoned => none

def ClientCall.id (call : ClientCall) : UInt64 := call.message.header.requestId

/-- Whether a response in an answer fits the id that it answers. -/
def Answer.Fits (fits : UInt64 → Response → Prop) (id : UInt64) (a : Answer) : Prop :=
  ∀ m r, a = .ok m → m.body = .response r → fits id r

theorem Answer.fits_error (fits : UInt64 → Response → Prop) (id : UInt64) (e : CallError) :
    Answer.Fits fits id (.error e) := by
  intro m r h
  cases h

/-! ### The table -/

namespace Pending

theorem ticket_set (p : Pending) (t u : TicketId) (lot : Ticket) :
    ({ p with tickets := p.tickets.set t lot } : Pending).ticket u = p.ticket u ∨
      t = u ∧ ({ p with tickets := p.tickets.set t lot } : Pending).ticket u = lot := by
  unfold ticket
  rw [List.getElem?_set]
  split
  · next h =>
    split
    · exact .inr ⟨h, rfl⟩
    · next hlen => exact .inl (by rw [← h, List.getElem?_eq_none (Nat.le_of_not_lt hlen)])
  · exact .inl rfl

theorem length_settle (p : Pending) (id : UInt64) (lot : Ticket) :
    (p.settle id lot).2.tickets.length = p.tickets.length := by
  unfold settle
  split
  · unfold settleTicket
    split
    · exact List.length_set
    · rfl
  · rfl

theorem mem_settle (p : Pending) (id : UInt64) (lot : Ticket) {e : PendingCall}
    (he : e ∈ (p.settle id lot).2.calls) : e ∈ p.calls := by
  unfold settle at he
  split at he
  · unfold settleTicket at he
    split at he
    · exact (List.mem_filter.1 he).1
    · exact (List.mem_filter.1 he).1
  · exact he

/-- Settling an id changes no ticket but the one that is entered under it. -/
theorem ticket_settle (p : Pending) (id : UInt64) (lot : Ticket) (u : TicketId) :
    (p.settle id lot).2.ticket u = p.ticket u ∨
      (p.settle id lot).2.ticket u = lot ∧ ∃ e ∈ p.calls, e.requestId = id ∧ e.ticket = u := by
  unfold settle
  split
  · next e he =>
    have hmem := List.mem_of_find?_eq_some he
    have hid : e.requestId = id := of_decide_eq_true (List.find?_some he :)
    unfold settleTicket
    split
    · obtain hsame | ⟨hticket, hlot⟩ := ticket_set (p.remove id) e.ticket u lot
      · exact .inl hsame
      · exact .inr ⟨hlot, e, hmem, hid, hticket⟩
    · exact .inl rfl
  · exact .inl rfl

end Pending

/-! ### Calls and their tickets -/

structure Tickets (fits : UInt64 → Response → Prop) (calls : List ClientCall) (p : Pending) :
    Prop where
  held : ∀ call ∈ calls, ∀ t, call.phase.ticket? = some t → t < p.tickets.length
  entered : ∀ e ∈ p.calls, e.ticket < p.tickets.length
  owner : ∀ e ∈ p.calls, ∀ call ∈ calls, call.phase.ticket? = some e.ticket →
    call.id = e.requestId
  answered : ∀ call ∈ calls, ∀ t a, call.phase.ticket? = some t → p.ticket t = .answered a →
    a.Fits fits call.id

namespace Tickets

variable {fits fits' : UInt64 → Response → Prop} {calls : List ClientCall} {p : Pending}

theorem empty : Tickets fits [] {} where
  held _ hc := by cases hc
  entered _ he := by cases he
  owner _ he := by cases he
  answered _ hc := by cases hc

theorem mono (h : Tickets fits calls p) (hfits : ∀ id r, fits id r → fits' id r) :
    Tickets fits' calls p :=
  ⟨h.held, h.entered, h.owner, fun call hc t a ht ha m r hm hr =>
    hfits _ _ (h.answered call hc t a ht ha m r hm hr)⟩

/-- An answer that fits an id comes to calls with that id. -/
theorem settle (h : Tickets fits calls p) (id : UInt64) (lot : Ticket)
    (hlot : ∀ a, lot = .answered a → a.Fits fits id) : Tickets fits calls (p.settle id lot).2 := by
  refine ⟨fun call hc t ht => ?_, fun e he => ?_, fun e he => ?_, fun call hc t a ht ha => ?_⟩
  · rw [Pending.length_settle]
    exact h.held call hc t ht
  · rw [Pending.length_settle]
    exact h.entered e (p.mem_settle id lot he)
  · exact h.owner e (p.mem_settle id lot he)
  · obtain hsame | ⟨hlot', e, he, rfl, rfl⟩ := p.ticket_settle id lot t
    · exact h.answered call hc t a ht (hsame ▸ ha)
    · rw [h.owner e he call hc ht]
      exact hlot a (hlot'.symm.trans ha)

theorem cancel (h : Tickets fits calls p) (id : UInt64) : Tickets fits calls (p.cancel id).2 :=
  h.settle id .closed fun _ ha => nomatch ha

theorem resolve (h : Tickets fits calls p) {id : UInt64} {a : Answer} (ha : a.Fits fits id) :
    Tickets fits calls (p.resolve id a).2 :=
  h.settle id (.answered a) fun _ hlot => Ticket.answered.inj hlot ▸ ha

theorem failEach (h : Tickets fits calls p) (e : CallError) (ids : List UInt64) :
    Tickets fits calls (p.failEach e ids).2 := by
  induction ids generalizing p with
  | nil => exact h
  | cons id rest ih => exact ih (h.resolve (Answer.fits_error fits id e))

/-- A ticket is used up. -/
theorem leave (h : Tickets fits calls p) (t : TicketId) : Tickets fits calls (p.leave t) := by
  have hlen : (p.leave t).tickets.length = p.tickets.length := List.length_set
  refine ⟨fun call hc u hu => ?_, fun e he => ?_, h.owner, fun call hc u a hu ha => ?_⟩
  · rw [hlen]
    exact h.held call hc u hu
  · rw [hlen]
    exact h.entered e he
  · obtain hsame | ⟨_, hlot⟩ := p.ticket_set t u .closed
    · exact h.answered call hc u a hu (hsame ▸ ha)
    · exact nomatch hlot.symm.trans ha

theorem collect (h : Tickets fits calls p) (t : TicketId) : Tickets fits calls (p.collect t).2 := by
  unfold Pending.collect
  split
  · exact h.leave t
  · exact h

/-- A call goes on with the ticket it holds, or without one. -/
theorem setPhase (h : Tickets fits calls p) {n : CallId} {call : ClientCall}
    (hn : calls[n]? = some call) {phase : CallPhase}
    (hphase : ∀ t, phase.ticket? = some t → call.phase.ticket? = some t) :
    Tickets fits (calls.modify n fun c => { c with phase := phase }) p := by
  have hcall := List.mem_of_getElem? hn
  have hold {c : ClientCall} (hc : c ∈ calls.modify n fun c => { c with phase := phase })
      {t : TicketId} (ht : c.phase.ticket? = some t) :
      ∃ d ∈ calls, d.phase.ticket? = some t ∧ d.id = c.id := by
    obtain hc | rfl := mem_modify hn hc
    · exact ⟨c, hc, ht, rfl⟩
    · exact ⟨call, hcall, hphase t ht, rfl⟩
  refine ⟨fun c hc t ht => ?_, h.entered, fun e he c hc ht => ?_, fun c hc t a ht ha => ?_⟩
  · obtain ⟨d, hd, hticket, _⟩ := hold hc ht
    exact h.held d hd t hticket
  · obtain ⟨d, hd, hticket, hid⟩ := hold hc ht
    exact hid ▸ h.owner e he d hd hticket
  · obtain ⟨d, hd, hticket, hid⟩ := hold hc ht
    exact hid ▸ h.answered d hd t a hticket ha

/-- A call enters the table under its id, with a ticket that nobody else holds. -/
theorem register (h : Tickets fits calls p) {n : CallId} {call : ClientCall}
    (hn : calls[n]? = some call) (c : ConnectionId) {phase : CallPhase}
    (hphase : phase.ticket? = some (p.register call.id c).1) :
    Tickets fits (calls.modify n fun c => { c with phase := phase })
      (p.register call.id c).2 := by
  have hcleared := h.settle call.id .closed fun _ ha => nomatch ha
  have hfresh : (p.register call.id c).1 = (p.settle call.id .closed).2.tickets.length := rfl
  have hlen : (p.register call.id c).2.tickets.length =
      (p.settle call.id .closed).2.tickets.length + 1 := List.length_append
  have hticket (t : TicketId) (a : Answer)
      (ha : (p.register call.id c).2.ticket t = .answered a) :
      (p.settle call.id .closed).2.ticket t = .answered a := by
    unfold Pending.ticket Pending.register at ha
    rw [List.getElem?_append] at ha
    split at ha
    · exact ha
    · next hge =>
      cases hk : t - (p.settle call.id .closed).2.tickets.length with
      | zero => simp [hk] at ha
      | succ k => simp [hk] at ha
  refine ⟨fun d hd t ht => ?_, fun e he => ?_, fun e he d hd ht => ?_, fun d hd t a ht ha => ?_⟩
  · rw [hlen]
    obtain hd | rfl := mem_modify hn hd
    · exact Nat.lt_succ_of_lt (hcleared.held d hd t ht)
    · rw [← Option.some.inj (hphase.symm.trans ht), hfresh]
      exact Nat.lt_succ_self _
  · rw [hlen]
    obtain he | he := List.mem_append.1 he
    · exact Nat.lt_succ_of_lt (hcleared.entered e he)
    · rw [List.mem_singleton.1 he]
      exact Nat.lt_succ_self _
  · obtain he | he := List.mem_append.1 he
    · obtain hd | rfl := mem_modify hn hd
      · exact hcleared.owner e he d hd ht
      · have hlt := hcleared.entered e he
        have heq := Option.some.inj (hphase.symm.trans ht)
        exact absurd (heq.symm.trans hfresh) (Nat.ne_of_lt hlt)
    · rw [List.mem_singleton.1 he] at ht ⊢
      obtain hd | rfl := mem_modify hn hd
      · exact absurd (hcleared.held d hd _ ht) (Nat.lt_irrefl _)
      · rfl
  · obtain hd | rfl := mem_modify hn hd
    · exact hcleared.answered d hd t a ht (hticket t a ha)
    · have heq := Option.some.inj (hphase.symm.trans ht)
      have hclosed : (p.settle call.id .closed).2.ticket t = .closed := by
        unfold Pending.ticket
        rw [List.getElem?_eq_none (Nat.le_of_eq (hfresh.symm.trans heq))]
        rfl
      exact nomatch hclosed.symm.trans (hticket t a ha)

theorem start (h : Tickets fits calls p) {call : ClientCall} (hcall : call.phase.ticket? = none) :
    Tickets fits (calls ++ [call]) p := by
  have hold {c : ClientCall} (hc : c ∈ calls ++ [call]) {t : TicketId}
      (ht : c.phase.ticket? = some t) : c ∈ calls := by
    obtain hc | hc := List.mem_append.1 hc
    · exact hc
    · rw [List.mem_singleton.1 hc, hcall] at ht
      cases ht
  exact ⟨fun c hc t ht => h.held c (hold hc ht) t ht, h.entered,
    fun e he c hc ht => h.owner e he c (hold hc ht) ht,
    fun c hc t a ht => h.answered c (hold hc ht) t a ht⟩

end Tickets
end RemoteCall.Transport
