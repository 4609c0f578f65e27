import Mathlib.Data.List.Nodup
import RemoteCall.Proofs.Transport.Tickets

/-! What settling does to the table of pending calls.

Every way out of the table takes some entries out and gives their tickets one lot each; what
differs is only which entries (`Settles`). Answering and cancelling take the entry with one id,
the end of a connection takes the entries on it and the end of the client takes all, and the
latter two count the calls they fail (`failConnection_settles`, `failAll_settles`). All of this
needs that no id is in the table twice. -/
namespace RemoteCall.Transport

theorem Ticket.waits_iff {lot : Ticket} : lot.waits = true ↔ lot = .waiting := by
  cases lot <;> simp [waits]

namespace Pending

variable {p q r : Pending} {e : PendingCall} {id : UInt64} {lot : Ticket} {t u : TicketId}

def ids (p : Pending) : List UInt64 := p.calls.map PendingCall.requestId

theorem mem_ids : id ∈ p.ids ↔ ∃ e ∈ p.calls, e.requestId = id := List.mem_map

theorem entry_unique (h : p.ids.Nodup) {d : PendingCall} (he : e ∈ p.calls) (hd : d ∈ p.calls)
    (hid : e.requestId = d.requestId) : e = d := List.inj_on_of_nodup_map h he hd hid

theorem find?_of_mem (h : p.ids.Nodup) (he : e ∈ p.calls) : p.find? e.requestId = some e := by
  cases hfound : p.find? e.requestId with
  | none => simpa using List.find?_eq_none.1 hfound e he
  | some d =>
    have hid : d.requestId = e.requestId := of_decide_eq_true (List.find?_some hfound :)
    rw [entry_unique h (List.mem_of_find?_eq_some hfound) he hid]

theorem isSome_find? (p : Pending) (id : UInt64) : (p.find? id).isSome ↔ id ∈ p.ids := by
  rw [find?, List.find?_isSome]
  simp [mem_ids]

theorem find?_of_not_mem (h : id ∉ p.ids) : p.find? id = none := by
  rw [find?, List.find?_eq_none]
  intro e he hid
  exact h (mem_ids.2 ⟨e, he, of_decide_eq_true hid⟩)

theorem lt_of_waiting (h : p.ticket t = .waiting) : t < p.tickets.length := by
  rw [ticket] at h
  by_cases hlt : t < p.tickets.length
  · exact hlt
  · rw [List.getElem?_eq_none (Nat.le_of_not_lt hlt)] at h
    cases h

/-! ### One ticket -/

theorem ticket_settleTicket_self (h : p.ticket t = .waiting) :
    (p.settleTicket t lot).ticket t = lot := by
  have hlt := lt_of_waiting h
  rw [settleTicket, if_pos (Ticket.waits_iff.2 h), ticket, List.getElem?_set_self hlt]
  rfl

theorem ticket_settleTicket_of_ne (h : u ≠ t) : (p.settleTicket t lot).ticket u = p.ticket u := by
  rw [settleTicket]
  split
  · rw [ticket, List.getElem?_set_ne h.symm]
    rfl
  · rfl

/-- A ticket that has its lot keeps it. -/
theorem ticket_settleTicket_of_lot (h : p.ticket u ≠ .waiting) :
    (p.settleTicket t lot).ticket u = p.ticket u := by
  by_cases hut : u = t
  · subst hut
    rw [settleTicket, if_neg fun hwaits => h (Ticket.waits_iff.1 hwaits)]
  · exact ticket_settleTicket_of_ne hut

theorem calls_settleTicket (p : Pending) (t : TicketId) (lot : Ticket) :
    (p.settleTicket t lot).calls = p.calls := by
  rw [settleTicket]
  split <;> rfl

/-! ### Many entries -/

/-- The entries that a lot falls on leave the table, and their tickets get the lot if they
wait. Everything else stays as it is. -/
structure Settles (p q : Pending) (lot : UInt64 → ConnectionId → Option Ticket) : Prop where
  calls : q.calls = p.calls.filter fun e => (lot e.requestId e.connection).isNone
  hit : ∀ e ∈ p.calls, ∀ x, lot e.requestId e.connection = some x →
    p.ticket e.ticket = .waiting → q.ticket e.ticket = x
  spared : ∀ t, (∀ e ∈ p.calls, e.ticket = t → lot e.requestId e.connection = none) →
    q.ticket t = p.ticket t
  decided : ∀ t, p.ticket t ≠ .waiting → q.ticket t = p.ticket t

theorem Settles.mem {lot : UInt64 → ConnectionId → Option Ticket} (h : Settles p q lot) :
    e ∈ q.calls ↔ e ∈ p.calls ∧ lot e.requestId e.connection = none := by
  rw [h.calls, List.mem_filter, Option.isNone_iff_eq_none]

theorem Settles.ids_sublist {lot : UInt64 → ConnectionId → Option Ticket} (h : Settles p q lot) :
    q.ids.Sublist p.ids := by
  rw [ids, h.calls]
  exact List.filter_sublist.map _

theorem Settles.nodup {lot : UInt64 → ConnectionId → Option Ticket} (h : Settles p q lot)
    (hp : p.ids.Nodup) : q.ids.Nodup := hp.sublist h.ids_sublist

/-- Lots that agree on the entries settle the same. -/
theorem Settles.congr {lot lot' : UInt64 → ConnectionId → Option Ticket} (h : Settles p q lot)
    (heq : ∀ e ∈ p.calls, lot e.requestId e.connection = lot' e.requestId e.connection) :
    Settles p q lot' where
  calls := by
    rw [h.calls]
    exact List.filter_congr fun e he => by rw [heq e he]
  hit e he x hx := h.hit e he x (heq e he ▸ hx)
  spared t ht := h.spared t fun e he het => (heq e he).trans (ht e he het)
  decided := h.decided

theorem Settles.nothing (p : Pending) : Settles p p fun _ _ => none where
  calls := by simp
  hit e he x hx := by cases hx
  spared _ _ := rfl
  decided _ _ := rfl

/-- The same lot for all of some ids. -/
def among (ids : List UInt64) (lot : Ticket) : UInt64 → ConnectionId → Option Ticket :=
  fun id _ => if id ∈ ids then some lot else none

theorem among_pos {ids : List UInt64} (h : id ∈ ids) (c : ConnectionId) :
    among ids lot id c = some lot := if_pos h

theorem among_neg {ids : List UInt64} (h : id ∉ ids) (c : ConnectionId) :
    among ids lot id c = none := if_neg h

theorem settle_settles (h : p.ids.Nodup) (id : UInt64) (lot : Ticket) :
    Settles p (p.settle id lot).2 (among [id] lot) := by
  by_cases hid : id ∈ p.ids
  · obtain ⟨e, he, rfl⟩ := mem_ids.1 hid
    rw [settle, find?_of_mem h he]
    refine ⟨?_, fun d hd x hx hwaits => ?_, fun t ht => ?_, fun t ht => ?_⟩
    · rw [calls_settleTicket]
      refine List.filter_congr fun d _ => ?_
      by_cases hd : d.requestId = e.requestId <;> simp [among, hd]
    · by_cases heq : d.requestId = e.requestId
      · obtain rfl := entry_unique h hd he heq
        rw [among_pos List.mem_cons_self] at hx
        exact Option.some.inj hx ▸ ticket_settleTicket_self (p := p.remove d.requestId) hwaits
      · rw [among_neg (by simpa using heq)] at hx
        cases hx
    · refine ticket_settleTicket_of_ne (p := p.remove e.requestId) fun heq => ?_
      exact nomatch (among_pos List.mem_cons_self e.connection).symm.trans (ht e he heq.symm)
    · exact ticket_settleTicket_of_lot (p := p.remove e.requestId) ht
  · rw [settle, find?_of_not_mem hid]
    refine (Settles.nothing p).congr fun e he => (among_neg (fun hmem => hid ?_) _).symm
    exact List.mem_singleton.1 hmem ▸ List.mem_map_of_mem he

/-- Whether there was an entry to settle. -/
theorem settle_fst (h : p.ids.Nodup) (id : UInt64) (lot : Ticket) :
    (p.settle id lot).1 = decide (id ∈ p.ids) := by
  by_cases hid : id ∈ p.ids
  · obtain ⟨e, he, rfl⟩ := mem_ids.1 hid
    rw [settle, find?_of_mem h he, decide_eq_true hid]
  · rw [settle, find?_of_not_mem hid, decide_eq_false hid]

theorem Settles.mem_ids {xs : List UInt64} (h : Settles p q (among xs lot)) (hid : id ∉ xs) :
    id ∈ q.ids ↔ id ∈ p.ids := by
  refine ⟨fun hq => h.ids_sublist.subset hq, fun hp => ?_⟩
  obtain ⟨e, he, rfl⟩ := Pending.mem_ids.1 hp
  exact Pending.mem_ids.2 ⟨e, h.mem.2 ⟨he, among_neg hid _⟩, rfl⟩

theorem Settles.ticket_cases {ids : List UInt64} (h : Settles p q (among ids lot))
    (hwaits : p.ticket t = .waiting) : q.ticket t = .waiting ∨ q.ticket t = lot := by
  by_cases hspared : ∀ e ∈ p.calls, e.ticket = t → among ids lot e.requestId e.connection = none
  · exact .inl ((h.spared t hspared).trans hwaits)
  · simp only [Classical.not_forall] at hspared
    obtain ⟨e, he, rfl, hsome⟩ := hspared
    by_cases hid : e.requestId ∈ ids
    · exact .inr (h.hit e he lot (among_pos hid _) hwaits)
    · exact absurd (among_neg hid _) hsome

/-- One lot for some ids and then for others. -/
theorem Settles.append {xs ys : List UInt64} (h : Settles p q (among xs lot))
    (h' : Settles q r (among ys lot)) (hlot : lot ≠ .waiting) :
    Settles p r (among (xs ++ ys) lot) where
  calls := by
    rw [h'.calls, h.calls, List.filter_filter]
    refine List.filter_congr fun e _ => ?_
    by_cases hx : e.requestId ∈ xs <;> by_cases hy : e.requestId ∈ ys <;> simp [among, hx, hy]
  hit e he x hx hwaits := by
    have hdecided (hq : q.ticket e.ticket = lot) : r.ticket e.ticket = lot :=
      (h'.decided _ fun hw => hlot (hq.symm.trans hw)).trans hq
    by_cases hmem : e.requestId ∈ xs ++ ys
    · obtain rfl := Option.some.inj ((among_pos hmem _).symm.trans hx)
      by_cases hxs : e.requestId ∈ xs
      · exact hdecided (h.hit e he lot (among_pos hxs _) hwaits)
      · have hys := (List.mem_append.1 hmem).resolve_left hxs
        obtain hq | hq := h.ticket_cases hwaits
        · exact h'.hit e (h.mem.2 ⟨he, among_neg hxs _⟩) lot (among_pos hys _) hq
        · exact hdecided hq
    · exact nomatch (among_neg hmem _).symm.trans hx
  spared t ht := by
    have hnot {e : PendingCall} (he : e ∈ p.calls) (het : e.ticket = t) :
        e.requestId ∉ xs ++ ys := fun hmem =>
      nomatch (among_pos hmem e.connection).symm.trans (ht e he het)
    rw [h'.spared t fun e he het => ?_, h.spared t fun e he het => ?_]
    · exact among_neg (fun hxs => hnot he het (List.mem_append_left _ hxs)) _
    · exact among_neg (fun hys => hnot (h.mem.1 he).1 het (List.mem_append_right _ hys)) _
  decided t ht := by
    rw [h'.decided t, h.decided t ht]
    rw [h.decided t ht]
    exact ht

/-! ### Failing many at once -/

theorem failEach_settles (h : p.ids.Nodup) (e : CallError) (ids : List UInt64) :
    Settles p (p.failEach e ids).2 (among ids (.answered (.error e))) := by
  induction ids generalizing p with
  | nil => exact (Settles.nothing p).congr fun d _ => (among_neg List.not_mem_nil _).symm
  | cons id rest ih =>
    have hfirst := settle_settles h id (.answered (.error e))
    exact hfirst.append (ih (hfirst.nodup h)) nofun

/-- Only calls that are still in the table are counted. -/
theorem failEach_fst (h : p.ids.Nodup) (e : CallError) {ids : List UInt64} (hids : ids.Nodup) :
    (p.failEach e ids).1 = ids.countP (· ∈ p.ids) := by
  induction ids generalizing p with
  | nil => rfl
  | cons id rest ih =>
    obtain ⟨hnot, hrest⟩ := List.nodup_cons.1 hids
    have hfirst := settle_settles h id (.answered (.error e))
    have hsame : rest.countP (· ∈ (p.resolve id (.error e)).2.ids) = rest.countP (· ∈ p.ids) := by
      refine List.countP_congr fun other hother => ?_
      rw [decide_eq_true_iff, decide_eq_true_iff]
      exact hfirst.mem_ids fun hmem => hnot (List.mem_singleton.1 hmem ▸ hother)
    have hwas : (p.resolve id (.error e)).1 = decide (id ∈ p.ids) := settle_fst h id _
    have hcount := ih (hfirst.nodup h) hrest
    rw [failEach, List.countP_cons, ← hsame, ← hwas]
    dsimp only
    rw [show (p.resolve id (.error e)).2 = (p.settle id (.answered (.error e))).2 from rfl, hcount]
    split <;> rfl

theorem mem_idsOn (h : p.ids.Nodup) (he : e ∈ p.calls) {c : ConnectionId} :
    e.requestId ∈ p.idsOn c ↔ e.connection = c := by
  refine ⟨fun hmem => ?_, fun hc => ?_⟩
  · obtain ⟨d, hd, hid⟩ := List.mem_map.1 hmem
    obtain ⟨hd, hc⟩ := List.mem_filter.1 hd
    rw [← entry_unique h hd he hid]
    exact of_decide_eq_true hc
  · exact List.mem_map_of_mem (List.mem_filter.2 ⟨he, decide_eq_true hc⟩)

/-- The end of a connection settles the calls on it, and counts them. -/
theorem failConnection_settles (h : p.ids.Nodup) (c : ConnectionId) (e : CallError) :
    (p.failConnection c e).1 = p.calls.countP (·.connection = c) ∧
      Settles p (p.failConnection c e).2 fun _ d =>
        if d = c then some (.answered (.error e)) else none := by
  have hids : (p.idsOn c).Sublist p.ids := List.filter_sublist.map _
  refine ⟨?_, (failEach_settles h e (p.idsOn c)).congr fun d hd => ?_⟩
  · rw [failConnection, failEach_fst h e (h.sublist hids), List.countP_eq_length.2 fun id hid =>
      decide_eq_true (hids.subset hid), idsOn, List.length_map, List.countP_eq_length_filter]
  · by_cases hc : d.connection = c
    · rw [among_pos ((mem_idsOn h hd).2 hc), if_pos hc]
    · rw [among_neg fun hmem => hc ((mem_idsOn h hd).1 hmem), if_neg hc]

/-- The end of the client settles all calls, and counts them. -/
theorem failAll_settles (h : p.ids.Nodup) (e : CallError) :
    (p.failAll e).1 = p.size ∧
      Settles p (p.failAll e).2 fun _ _ => some (.answered (.error e)) := by
  refine ⟨?_, (failEach_settles h e p.ids).congr fun d hd => among_pos (List.mem_map_of_mem hd) _⟩
  rw [failAll, size]
  exact (failEach_fst h e h).trans ((List.countP_eq_length.2 fun id hid =>
    decide_eq_true hid).trans (List.length_map _))

/-! ### Coming in and being collected -/

/-- A call enters the table under an id that nobody there has. -/
theorem register_new (h : id ∉ p.ids) (c : ConnectionId) :
    p.register id c = (p.tickets.length,
      ⟨p.calls ++ [⟨id, c, p.tickets.length⟩], p.tickets ++ [.waiting]⟩) := by
  rw [register, settle, find?_of_not_mem h]

theorem ticket_append (p : Pending) (h : t < p.tickets.length) (more : List Ticket)
    (calls : List PendingCall) : (⟨calls, p.tickets ++ more⟩ : Pending).ticket t = p.ticket t := by
  rw [ticket, ticket, List.getElem?_append_left h]

theorem ticket_new (p : Pending) (calls : List PendingCall) :
    (⟨calls, p.tickets ++ [.waiting]⟩ : Pending).ticket p.tickets.length = .waiting := by
  rw [ticket, List.getElem?_concat_length]
  rfl

theorem ticket_leave_self (p : Pending) (t : TicketId) : (p.leave t).ticket t = .closed := by
  rw [leave, ticket, List.getElem?_set]
  split
  · split <;> rfl
  · contradiction

theorem ticket_leave_of_ne (h : u ≠ t) : (p.leave t).ticket u = p.ticket u := by
  rw [leave, ticket, List.getElem?_set_ne h.symm]
  rfl

end Pending
end RemoteCall.Transport
