import RemoteCall.Proofs.Transport.PoolSteps
import RemoteCall.Proofs.Transport.Settlement

/-! Who stands in the table of pending calls.

A call comes into the table with a ticket of its own, and whoever takes it out settles its ticket.
So every entry belongs to a call that waits for it or has yet to look at its connection, unless the
caller went away and left the entry behind, and a ticket that waits has its entry in the table
(`Attended`). A closing marks the connection first and fails the calls on it after that, so an entry
on a connection whose closing is complete belongs to a call that has only just registered.

This is so for messages with any ids, sent by anybody, and for connections that are used and closed
past the client. -/
namespace RemoteCall.Transport.Client

variable {cl : Client} {n : CallId} {call : ClientCall} {a : AttemptId} {c : ConnectionId}
  {t : TicketId}

/-! ### The invariant -/

/-- What calls, the table and the connections have to do with each other, where `left` are the
tickets of callers that went away. -/
structure Attended (left : TicketId → Prop) (cl : Client) : Prop where
  sound : cl.pool.Sound
  tickets : Tickets (fun _ _ => True) cl.calls cl.pending
  nodup : cl.pending.ids.Nodup
  /-- No ticket is held twice. -/
  apart : ∀ (i j : CallId) (one other : ClientCall) (t : TicketId), cl.calls[i]? = some one →
    cl.calls[j]? = some other → one.phase.ticket? = some t → other.phase.ticket? = some t → i = j
  connection : ∀ e ∈ cl.pending.calls, ∀ call ∈ cl.calls, call.phase.ticket? = some e.ticket →
    call.phase.connection? = some e.connection
  entry : ∀ call ∈ cl.calls, ∀ t, call.phase.ticket? = some t → cl.pending.ticket t = .waiting →
    ∃ e ∈ cl.pending.calls, e.ticket = t
  /-- No ticket is entered twice. -/
  single : ∀ d ∈ cl.pending.calls, ∀ e ∈ cl.pending.calls, d.ticket = e.ticket → d = e
  /-- Who is in the table waits, unless the caller went away. -/
  kept : ∀ e ∈ cl.pending.calls, cl.pending.ticket e.ticket = .waiting ∧
    (∃ call ∈ cl.calls, call.phase.ticket? = some e.ticket) ∨ left e.ticket
  /-- Who comes into the table has got a connection. -/
  past : ∀ call ∈ cl.calls, ∀ a t, call.phase.attempt? = some a → call.phase.ticket? = some t →
    cl.pool.Past a
  closed : ∀ c, (cl.wire c).failed = true → cl.pool.state? c = some .closed
  /-- Who is in the table when a closing is complete has yet to look. -/
  late : ∀ e ∈ cl.pending.calls, (cl.wire e.connection).failed = true →
    ∃ (n : CallId) (call : ClientCall) (a : AttemptId), cl.calls[n]? = some call ∧
      call.phase = .registered a e.connection e.ticket

variable {left : TicketId → Prop}

theorem attended_new (left : TicketId → Prop) (config : TransportConfig) :
    Attended left (.new config) where
  sound := Pool.sound_empty _
  tickets := .empty
  nodup := List.nodup_nil
  apart i j one other t h := by simp [Client.new] at h
  connection e h := by cases h
  entry call h := by cases h
  single e h := by cases h
  kept e h := by cases h
  past call h := by cases h
  closed c h := by cases h
  late e h := by cases h

namespace Attended

variable (h : Attended left cl)
include h

/-- More callers may have gone away. -/
theorem mono {left' : TicketId → Prop} (hleft : ∀ t, left t → left' t) : Attended left' cl :=
  { h with kept := fun e he => (h.kept e he).imp_right (hleft _) }

/-! ### Changes apart from calls -/

theorem poolStep (action : Pool.Action) : Attended left (cl.poolStep action) :=
  { h with
    sound := h.sound.step action
    past := fun call hcall a t ha ht =>
      (Pool.Grows.step h.sound action).past a (h.past call hcall a t ha ht)
    closed := fun c hc => (Pool.Grows.step h.sound action).ended (h.closed c hc) rfl }

/-- A connection goes on with its tasks. -/
theorem setWire {w : Wire} (hw : w.failed = (cl.wire c).failed) : Attended left (cl.setWire c w) := by
  have hfailed (d : ConnectionId) : ((cl.setWire c w).wire d).failed = (cl.wire d).failed := by
    rw [wire_setWire]
    split
    · next hdc => rw [hw, hdc]
    · rfl
  exact { h with
    closed := fun d hd => h.closed d (hfailed d ▸ hd)
    late := fun e he hd => h.late e he (hfailed _ ▸ hd) }

theorem setClosing (closing : Closing) : Attended left { cl with closing := closing } :=
  { h with }

/-- Some entries leave the table, and each of their tickets gets its lot. -/
theorem settle {q : Pending} {lot : UInt64 → ConnectionId → Option Ticket}
    (hq : Pending.Settles cl.pending q lot) (hlot : ∀ id c, lot id c ≠ some .waiting)
    (ht : Tickets (fun _ _ => True) cl.calls q) : Attended left { cl with pending := q } where
  sound := h.sound
  tickets := ht
  nodup := hq.nodup h.nodup
  apart := h.apart
  connection e he := h.connection e (hq.mem.1 he).1
  entry call hcall t hticket hwaits := by
    have hbefore : cl.pending.ticket t = .waiting :=
      Classical.not_not.1 fun hne => hne (hq.decided t hne ▸ hwaits)
    obtain ⟨e, he, rfl⟩ := h.entry call hcall t hticket hbefore
    refine ⟨e, hq.mem.2 ⟨he, ?_⟩, rfl⟩
    cases hx : lot e.requestId e.connection with
    | none => rfl
    | some x =>
      obtain rfl := (hq.hit e he x hx hbefore).symm.trans hwaits
      exact absurd hx (hlot _ _)
  single d hd e he := h.single d (hq.mem.1 hd).1 e (hq.mem.1 he).1
  kept e he := by
    obtain ⟨he, hlot⟩ := hq.mem.1 he
    refine (h.kept e he).imp_left fun ⟨hwaits, hheld⟩ => ⟨(hq.spared _ ?_).trans hwaits, hheld⟩
    intro d hd hde
    obtain rfl := h.single d hd e he hde
    exact hlot
  past := h.past
  closed := h.closed
  late e he := h.late e (hq.mem.1 he).1

theorem cancel (id : UInt64) : Attended left { cl with pending := (cl.pending.cancel id).2 } :=
  h.settle (Pending.settle_settles h.nodup id .closed) (fun other c => by
    unfold Pending.among
    split <;> simp) (h.tickets.cancel id)

/-! ### Calls -/

/-- A call goes on with its ticket on the same connection, or without it if nobody waits under it
or the caller is gone. It looks at its connection only if that is not closed. -/
theorem setPhase (hn : cl.calls[n]? = some call) {phase : CallPhase}
    (hticket : ∀ t, phase.ticket? = some t → call.phase.ticket? = some t ∧
      phase.connection? = call.phase.connection? ∧
      ∀ a, phase.attempt? = some a → call.phase.attempt? = some a)
    (hkept : ∀ e ∈ cl.pending.calls, call.phase.ticket? = some e.ticket →
      cl.pending.ticket e.ticket = .waiting → phase.ticket? = some e.ticket ∨ left e.ticket)
    (hlate : ∀ a c t, call.phase = .registered a c t → (cl.wire c).failed = true →
      ∀ e ∈ cl.pending.calls, e.ticket ≠ t) : Attended left (cl.setPhase n phase) := by
  have hcall := List.mem_of_getElem? hn
  have hold {m : CallId} {other : ClientCall} {t : TicketId}
      (hm : (cl.setPhase n phase).calls[m]? = some other) (ht : other.phase.ticket? = some t) :
      ∃ before, cl.calls[m]? = some before ∧ before.phase.ticket? = some t ∧
        other.phase.connection? = before.phase.connection? ∧
        ∀ a, other.phase.attempt? = some a → before.phase.attempt? = some a := by
    obtain ⟨rfl, rfl⟩ | ⟨-, hm⟩ := of_getElem?_modify hn hm
    · exact ⟨call, hn, hticket t ht⟩
    · exact ⟨other, hm, ht, rfl, fun _ => id⟩
  have hmem {other : ClientCall} {t : TicketId} (ho : other ∈ (cl.setPhase n phase).calls)
      (ht : other.phase.ticket? = some t) :
      ∃ before ∈ cl.calls, before.phase.ticket? = some t ∧
        other.phase.connection? = before.phase.connection? ∧
        ∀ a, other.phase.attempt? = some a → before.phase.attempt? = some a := by
    obtain ⟨m, hm⟩ := List.getElem?_of_mem ho
    obtain ⟨before, hbefore, hrest⟩ := hold hm ht
    exact ⟨before, List.mem_of_getElem? hbefore, hrest⟩
  refine ⟨h.sound, h.tickets.setPhase hn fun t ht => (hticket t ht).1, h.nodup,
    fun i j one other t hi hj hone hother => ?_, fun e he other ho ht => ?_,
    fun other ho t ht hwaits => ?_, h.single, fun e he => ?_, fun other ho a t ha ht => ?_,
    h.closed, fun e he hfailed => ?_⟩
  · obtain ⟨one', hi', hone', -⟩ := hold hi hone
    obtain ⟨other', hj', hother', -⟩ := hold hj hother
    exact h.apart i j one' other' t hi' hj' hone' hother'
  · obtain ⟨before, hbefore, hticket, hconnection, -⟩ := hmem ho ht
    exact hconnection.trans (h.connection e he before hbefore hticket)
  · obtain ⟨before, hbefore, hticket, -⟩ := hmem ho ht
    exact h.entry before hbefore t hticket hwaits
  · obtain ⟨hwaits, other, ho, ht⟩ | hleft := h.kept e he
    · obtain rfl | ho := mem_modify_of_mem hn ({ · with phase := phase }) ho
      · exact (hkept e he ht hwaits).imp_left fun ht =>
          ⟨hwaits, _, mem_modify_self hn _, ht⟩
      · exact .inl ⟨hwaits, other, ho, ht⟩
    · exact .inr hleft
  · obtain ⟨before, hbefore, hticket, -, hattempt⟩ := hmem ho ht
    exact h.past before hbefore a t (hattempt a ha) hticket
  · obtain ⟨m, owner, a, hm, hphase⟩ := h.late e he hfailed
    have hother : m ≠ n := by
      rintro rfl
      obtain rfl := Option.some.inj (hn.symm.trans hm)
      exact hlate a _ _ hphase hfailed e he rfl
    refine ⟨m, owner, a, ?_, hphase⟩
    show (cl.calls.modify n _)[m]? = _
    rw [List.getElem?_modify_ne _ _ hother.symm]
    exact hm

/-- A call that has no ticket afterwards: it was not registered, and nobody waited under its ticket
any more. -/
theorem drop (hn : cl.calls[n]? = some call) (hphase : ∀ a c t, call.phase ≠ .registered a c t)
    {phase : CallPhase} (hticket : phase.ticket? = none)
    (hkept : ∀ e ∈ cl.pending.calls, call.phase.ticket? = some e.ticket →
      cl.pending.ticket e.ticket ≠ .waiting) : Attended left (cl.setPhase n phase) :=
  h.setPhase hn (fun _ ht => nomatch hticket.symm.trans ht)
    (fun e he ht hwaits => absurd hwaits (hkept e he ht))
    fun a c t hregistered => absurd hregistered (hphase a c t)

/-- A call that has no ticket. -/
theorem stop (hn : cl.calls[n]? = some call) (hnone : call.phase.ticket? = none)
    {phase : CallPhase} (hticket : phase.ticket? = none) : Attended left (cl.setPhase n phase) := by
  refine h.drop hn (fun a c t hregistered => ?_) hticket fun e _ ht => nomatch hnone.symm.trans ht
  rw [hregistered] at hnone
  cases hnone

/-- A call that is not registered keeps its ticket. -/
theorem keepTicket (hn : cl.calls[n]? = some call)
    (hphase : ∀ a c t, call.phase ≠ .registered a c t) {phase : CallPhase}
    (hticket : phase.ticket? = call.phase.ticket?)
    (hconnection : phase.connection? = call.phase.connection?)
    (hattempt : ∀ a, phase.attempt? = some a → call.phase.attempt? = some a) :
    Attended left (cl.setPhase n phase) :=
  h.setPhase hn (fun _ ht => ⟨hticket ▸ ht, hconnection, hattempt⟩)
    (fun _ _ ht _ => .inl (hticket ▸ ht))
    fun a c t hregistered => absurd hregistered (hphase a c t)

/-- A ticket is used up: it has its lot, or the caller went away. -/
theorem leave (t : TicketId) (hleft : cl.pending.ticket t = .waiting → left t) :
    Attended left { cl with pending := cl.pending.leave t } :=
  { h with
    tickets := h.tickets.leave t
    entry := fun call hcall u hu hwaits => by
      obtain hsame | ⟨-, hclosed⟩ := cl.pending.ticket_set t u .closed
      · exact h.entry call hcall u hu (hsame ▸ hwaits)
      · exact nomatch hclosed.symm.trans hwaits
    kept := fun e he => by
      obtain ⟨hwaits, hheld⟩ | hgone := h.kept e he
      · by_cases hticket : e.ticket = t
        · exact .inr (hticket ▸ hleft (hticket ▸ hwaits))
        · exact .inl ⟨(Pending.ticket_leave_of_ne hticket).trans hwaits, hheld⟩
      · exact .inr hgone }

omit h in
/-- An id that was cancelled is not in the table. -/
theorem not_mem_cancel (hnodup : cl.pending.ids.Nodup) (id : UInt64) :
    id ∉ (cl.pending.cancel id).2.ids := by
  intro hmem
  obtain ⟨e, he, rfl⟩ := Pending.mem_ids.1 hmem
  obtain ⟨-, hlot⟩ := (Pending.settle_settles hnodup e.requestId .closed).mem.1 he
  rw [Pending.among_pos List.mem_cons_self] at hlot
  cases hlot

/-- A call that has its connection comes into the table. -/
theorem register (hn : cl.calls[n]? = some call) (hphase : call.phase = .acquiring a)
    (hpast : cl.pool.Past a) (c : ConnectionId) :
    Attended left ({ cl with pending := (cl.pending.register call.id c).2 }.setPhase n
      (.registered a c (cl.pending.register call.id c).1)) := by
  have htickets : Tickets (fun _ _ => True)
      (cl.calls.modify n
        ({ · with phase := .registered a c (cl.pending.register call.id c).1 }))
      (cl.pending.register call.id c).2 := h.tickets.register hn c rfl
  have hcleared := h.cancel call.id
  have hfresh := not_mem_cancel h.nodup call.id
  have hregister : cl.pending.register call.id c =
      ((cl.pending.cancel call.id).2.tickets.length,
        ⟨(cl.pending.cancel call.id).2.calls ++
            [⟨call.id, c, (cl.pending.cancel call.id).2.tickets.length⟩],
          (cl.pending.cancel call.id).2.tickets ++ [.waiting]⟩) := rfl
  rw [hregister] at htickets ⊢
  generalize (cl.pending.cancel call.id).2 = p at htickets hcleared hfresh ⊢
  -- The ticket is new, so whoever has another one had it before.
  have hheld {m : CallId} {other : ClientCall} (hm : cl.calls[m]? = some other)
      (ht : other.phase.ticket? = some p.tickets.length) : False :=
    Nat.lt_irrefl _ (hcleared.tickets.held other (List.mem_of_getElem? hm) _ ht)
  have hentered {e : PendingCall} (he : e ∈ p.calls) : e.ticket ≠ p.tickets.length :=
    Nat.ne_of_lt (hcleared.tickets.entered e he)
  dsimp only at htickets ⊢
  refine ⟨h.sound, htickets, ?_, fun i j one other t hi hj hone hother => ?_,
    fun e he other ho ht => ?_, fun other ho t ht hwaits => ?_, fun d hd e he hde => ?_,
    fun e he => ?_, fun other ho b t hb ht => ?_, h.closed, fun e he hfailed => ?_⟩
  · show (List.map _ (p.calls ++ [_])).Nodup
    rw [List.map_append]
    refine List.nodup_append.2 ⟨hcleared.nodup, List.nodup_singleton _, fun id hid d hd heq => ?_⟩
    rw [heq, List.mem_singleton.1 hd] at hid
    exact hfresh hid
  · obtain ⟨hin, rfl⟩ | ⟨-, holdi⟩ := of_getElem?_modify hn hi
    · obtain ⟨hjn, rfl⟩ | ⟨-, holdj⟩ := of_getElem?_modify hn hj
      · exact hin.trans hjn.symm
      · cases hone
        exact (hheld holdj hother).elim
    · obtain ⟨-, rfl⟩ | ⟨-, holdj⟩ := of_getElem?_modify hn hj
      · cases hother
        exact (hheld holdi hone).elim
      · exact h.apart i j one other t holdi holdj hone hother
  · obtain ⟨m, hm⟩ := List.getElem?_of_mem ho
    obtain hold | he := List.mem_append.1 he
    · obtain ⟨rfl, rfl⟩ | ⟨-, hm⟩ := of_getElem?_modify hn hm
      · exact absurd (Option.some.inj ht).symm (hentered hold)
      · exact hcleared.connection e hold other (List.mem_of_getElem? hm) ht
    · obtain rfl := List.mem_singleton.1 he
      obtain ⟨rfl, rfl⟩ | ⟨-, hm⟩ := of_getElem?_modify hn hm
      · rfl
      · exact (hheld hm ht).elim
  · obtain ⟨m, hm⟩ := List.getElem?_of_mem ho
    obtain ⟨rfl, rfl⟩ | ⟨-, hm⟩ := of_getElem?_modify hn hm
    · cases ht
      exact ⟨_, List.mem_append_right _ List.mem_cons_self, rfl⟩
    · have hmem := List.mem_of_getElem? hm
      have hbefore : p.ticket t = .waiting :=
        (Pending.ticket_append p (hcleared.tickets.held other hmem t ht) _ _).symm.trans hwaits
      obtain ⟨e, he, het⟩ := hcleared.entry other hmem t ht hbefore
      exact ⟨e, List.mem_append_left _ he, het⟩
  · obtain hd | hd := List.mem_append.1 hd
    · obtain he | he := List.mem_append.1 he
      · exact hcleared.single d hd e he hde
      · rw [List.mem_singleton.1 he] at hde
        exact absurd hde (hentered hd)
    · rw [List.mem_singleton.1 hd] at hde ⊢
      obtain he | he := List.mem_append.1 he
      · exact absurd hde.symm (hentered he)
      · exact (List.mem_singleton.1 he).symm
  · obtain he | he := List.mem_append.1 he
    · refine (hcleared.kept e he).imp_left fun ⟨hwaits, other, ho, ht⟩ => ⟨?_, other, ?_, ht⟩
      · exact (Pending.ticket_append p (hcleared.tickets.entered e he) _ _).trans hwaits
      · refine (mem_modify_of_mem hn _ ho).resolve_left ?_
        rintro rfl
        rw [hphase] at ht
        cases ht
    · obtain rfl := List.mem_singleton.1 he
      exact .inl ⟨Pending.ticket_new p _, _, mem_modify_self hn _, rfl⟩
  · obtain ho | rfl := mem_modify hn ho
    · exact h.past other ho b t hb ht
    · cases hb
      exact hpast
  · obtain he | he := List.mem_append.1 he
    · obtain ⟨m, owner, b, hm, howner⟩ := hcleared.late e he hfailed
      have hother : m ≠ n := by
        rintro rfl
        obtain rfl := Option.some.inj (hn.symm.trans hm)
        cases hphase.symm.trans howner
      refine ⟨m, owner, b, ?_, howner⟩
      show (cl.calls.modify n _)[m]? = _
      rw [List.getElem?_modify_ne _ _ hother.symm]
      exact hm
    · obtain rfl := List.mem_singleton.1 he
      refine ⟨n, { call with phase := .registered a c p.tickets.length }, a, ?_, rfl⟩
      show (cl.calls.modify n _)[n]? = _
      rw [List.getElem?_modify_eq, hn]
      rfl

/-- A new call has nothing yet. -/
theorem start {new : ClientCall} (hphase : new.phase = .starting) (ids : RequestIds) :
    Attended left { cl with ids := ids, calls := cl.calls ++ [new] } := by
  have hold {m : CallId} {other : ClientCall} {t : TicketId}
      (hm : (cl.calls ++ [new])[m]? = some other) (ht : other.phase.ticket? = some t) :
      cl.calls[m]? = some other := by
    rw [List.getElem?_append] at hm
    split at hm
    · exact hm
    · rw [List.mem_singleton.1 (List.mem_of_getElem? hm), hphase] at ht
      cases ht
  have hmem {other : ClientCall} {t : TicketId} (ho : other ∈ cl.calls ++ [new])
      (ht : other.phase.ticket? = some t) : other ∈ cl.calls := by
    obtain ⟨m, hm⟩ := List.getElem?_of_mem ho
    exact List.mem_of_getElem? (hold hm ht)
  refine ⟨h.sound, h.tickets.start (by rw [hphase]; rfl), h.nodup,
    fun i j one other t hi hj hone hother => ?_, fun e he other ho ht => ?_,
    fun other ho t ht => ?_, h.single, fun e he => ?_, fun other ho a t ha ht => ?_, h.closed,
    fun e he hfailed => ?_⟩
  · exact h.apart i j one other t (hold hi hone) (hold hj hother) hone hother
  · exact h.connection e he other (hmem ho ht) ht
  · exact h.entry other (hmem ho ht) t ht
  · exact (h.kept e he).imp_left fun ⟨hwaits, other, ho, ht⟩ =>
      ⟨hwaits, other, List.mem_append_left _ ho, ht⟩
  · exact h.past other (hmem ho ht) a t ha ht
  · obtain ⟨m, owner, a, hm, howner⟩ := h.late e he hfailed
    exact ⟨m, owner, a, (List.getElem?_append_left (List.getElem?_eq_some_iff.1 hm).1).trans hm,
      howner⟩

/-! ### Steps of a call -/

theorem begin (hn : cl.calls[n]? = some call) (hphase : call.phase = .starting) :
    Attended left (cl.begin n call) := by
  have hnone : call.phase.ticket? = none := by rw [hphase]; rfl
  unfold Client.begin
  split
  · exact h.stop hn hnone rfl
  · split
    · exact h.stop hn hnone rfl
    · exact (h.poolStep (.arrive call.address)).stop hn hnone rfl

theorem enter (hn : cl.calls[n]? = some call) (hphase : call.phase = .acquiring a) :
    Attended left (cl.enter n call a) := by
  unfold Client.enter
  split
  · next c hleased =>
    obtain ⟨x, hx, hxphase⟩ := Option.map_eq_some_iff.1 hleased
    exact h.register hn hphase ⟨x, hx, by rw [hxphase]; rfl⟩ c
  · exact h.stop hn (by rw [hphase]; rfl) rfl
  · exact h

/-- A call that is cancelled takes its own entry with it. -/
theorem not_held_cancel (hn : cl.calls[n]? = some call) {e : PendingCall}
    (he : e ∈ (cl.pending.cancel call.id).2.calls) : call.phase.ticket? ≠ some e.ticket := by
  intro hticket
  have hid : call.id = e.requestId :=
    (h.cancel call.id).tickets.owner e he call (List.mem_of_getElem? hn) hticket
  exact not_mem_cancel h.nodup call.id (Pending.mem_ids.2 ⟨e, he, hid.symm⟩)

theorem withdraw (hn : cl.calls[n]? = some call) (a : AttemptId) (c : ConnectionId) :
    Attended left (cl.withdraw n call a c) := by
  refine ((h.cancel call.id).poolStep (.release a)).setPhase hn (fun t ht => by cases ht)
    (fun e he ht => absurd ht (h.not_held_cancel hn he)) fun b d t hregistered _ e he hticket => ?_
  refine h.not_held_cancel hn he ?_
  rw [hregistered, hticket]
  rfl

theorem enqueue (hn : cl.calls[n]? = some call) (hphase : call.phase = .checked a c t) :
    Attended left (cl.enqueue n call a c t) := by
  unfold Client.enqueue
  dsimp only
  split
  · exact h
  · next b _ =>
    split
    · have hwire := h.setWire (c := c) (w := { cl.wire c with queue := (cl.wire c).queue ++ [b] }) rfl
      refine (hwire.poolStep (.queue c)).keepTicket hn (by simp [hphase]) ?_ ?_ fun b hb => ?_
      · rw [hphase]
        rfl
      · rw [hphase]
        rfl
      · rw [hphase]
        exact hb
    · exact h

theorem look (hn : cl.calls[n]? = some call) (hphase : call.phase = .waiting c t) :
    Attended left (cl.look n c t) := by
  have hown {u : TicketId} (hu : call.phase.ticket? = some u) : t = u := by
    rw [hphase] at hu
    exact Option.some.inj hu
  unfold Client.look
  cases hlot : cl.pending.ticket t with
  | waiting =>
    rw [Pending.collect, hlot]
    exact h
  | closed =>
    rw [Pending.collect, hlot]
    refine h.drop hn (by simp [hphase]) rfl fun e _ ht => ?_
    simp [← hown ht, hlot]
  | answered answer =>
    rw [Pending.collect, hlot]
    have hleft := h.leave t fun hwaits => by simp [hlot] at hwaits
    refine hleft.drop hn (by simp [hphase]) rfl fun e _ ht => ?_
    simp [← hown ht, Pending.ticket_leave_self]

/-- **A call looks at its connection after it came into the table**, and goes on only if the
connection is not closed. -/
theorem proceed (hn : cl.calls[n]? = some call) : Attended left (cl.proceed n call) := by
  unfold Client.proceed
  split
  · next hphase => exact h.begin hn hphase
  · next hphase => exact h.enter hn hphase
  · next a c t hphase =>
    split
    · exact h.withdraw hn a c
    · next hopen =>
      refine h.setPhase hn (fun u hu => ?_) (fun e _ ht _ => ?_) fun b d u hregistered hfailed => ?_
      · rw [hphase]
        exact ⟨hu, rfl, fun _ => id⟩
      · rw [hphase] at ht
        exact .inl ht
      · obtain ⟨-, rfl, -⟩ := CallPhase.registered.inj (hphase.symm.trans hregistered)
        obtain ⟨s, hs, hstate⟩ := Option.map_eq_some_iff.1 (h.closed c hfailed)
        exact absurd (by simp [Pool.socketClosed, hs, Socket.isClosed, hstate]) hopen
  · next hphase => exact h.enqueue hn hphase
  · next a c t hphase =>
    refine (h.poolStep (.release a)).keepTicket hn (by simp [hphase]) ?_ ?_ fun b hb => by cases hb
    · rw [hphase]
      rfl
    · rw [hphase]
      rfl
  · next hphase => exact h.look hn hphase
  · exact h
  · exact h

theorem refuseFrame (hn : cl.calls[n]? = some call) : Attended left (cl.refuseFrame n call) := by
  unfold Client.refuseFrame
  split
  · split
    · exact h.withdraw hn _ _
    · exact h
  · exact h

theorem expire (hn : cl.calls[n]? = some call) : Attended left (cl.expire n call) := by
  unfold Client.expire
  split
  · next hphase =>
    dsimp only
    split
    · exact (h.cancel call.id).drop hn (by simp [hphase]) rfl fun e he ht =>
        absurd ht (h.not_held_cancel hn he)
    · exact h
  · exact h

/-- A call that is given up throws its ticket away, if it had one. -/
theorem leaveOwn (hn : cl.calls[n]? = some call) (hphase : ∀ a c t, call.phase ≠ .registered a c t)
    (ht : call.phase.ticket? = some t) (hleft : left t) :
    Attended left ({ cl with pending := cl.pending.leave t }.setPhase n .abandoned) := by
  refine (h.leave t fun _ => hleft).drop hn hphase rfl fun e _ he => ?_
  simp [← Option.some.inj (ht.symm.trans he), Pending.ticket_leave_self]

/-- **Whoever goes away leaves no more than the ticket** that the call had. -/
theorem giveUp (hn : cl.calls[n]? = some call)
    (hleft : ∀ d t, cl.departure? n = some d → d.ticket = some t → left t) :
    Attended left (cl.giveUp n call) := by
  unfold Client.giveUp
  split
  · next a hphase =>
    have hnone : call.phase.ticket? = none := by rw [hphase]; rfl
    split
    · exact (h.poolStep (.abandon a)).stop hn hnone rfl
    · exact (h.poolStep (.abandon a)).stop hn hnone rfl
    · exact h
  · next a _ t hphase =>
    have hgone : left t := hleft { ticket := some t } t (by simp [departure?, hn, hphase]) rfl
    exact (h.poolStep (.abandon a)).leaveOwn hn (by simp [hphase]) (by rw [hphase]; rfl) hgone
  · next _ t hphase =>
    have hgone : left t := hleft { ticket := some t } t (by simp [departure?, hn, hphase]) rfl
    exact h.leaveOwn hn (by simp [hphase]) (by rw [hphase]; rfl) hgone
  · exact h

theorem onCall {f : Client → CallId → ClientCall → Client}
    (hf : ∀ call, cl.calls[n]? = some call → Attended left (f cl n call)) :
    Attended left (cl.onCall n f) := by
  unfold Client.onCall
  split
  · next call hn => exact hf call hn
  · exact h

/-! ### Steps of a connection -/

theorem mark {w : Wire} (hw : w.failed = (cl.wire c).failed) (reason : CallError) :
    Attended left (cl.mark c w reason) := by
  unfold Client.mark
  split
  · exact (h.setWire (c := c) (w := { w with reason := some reason }) hw).poolStep (.mark c)
  · exact h.setWire hw

theorem takeItem (item : FrameItem) : Attended left (cl.takeItem item) := by
  unfold Client.takeItem
  split
  · next id answer _ =>
    refine h.settle (Pending.settle_settles h.nodup id (.answered answer)) (fun other c => ?_)
      (h.tickets.resolve fun _ _ _ _ => trivial)
    unfold Pending.among
    split <;> simp
  · exact h

theorem handle (c : ConnectionId) : Attended left (cl.handle c) := by
  unfold Client.handle
  dsimp only
  split
  · next rest _ => exact (h.setWire (c := c) (w := { cl.wire c with inbox := rest }) rfl).takeItem _
  · split
    · exact h.mark (w := { cl.wire c with reading := false }) rfl _
    · exact h

theorem stopReading (c : ConnectionId) (reason : CallError) :
    Attended left (cl.stopReading c reason) := by
  unfold Client.stopReading
  dsimp only
  split
  · exact h.mark (w := { cl.wire c with reading := false }) rfl _
  · exact h

theorem receive (c : ConnectionId) (chunk : Bytes) : Attended left (cl.receive c chunk) := by
  unfold Client.receive
  dsimp only
  split
  · exact h.setWire rfl
  · exact h

theorem write (c : ConnectionId) : Attended left (cl.write c) := by
  unfold Client.write
  dsimp only
  split
  · next b rest _ =>
    exact (h.setWire (c := c)
      (w := { cl.wire c with queue := rest, written := (cl.wire c).written ++ [b] }) rfl).poolStep
        (.write c)
  · exact h

theorem failWriting (c : ConnectionId) (reason : String) : Attended left (cl.failWriting c reason) := by
  unfold Client.failWriting
  split
  · exact h.mark (c := c) rfl _
  · exact h

/-- **A closing fails whoever is in the table after it marked the connection.** -/
theorem fail (c : ConnectionId) : Attended left (cl.fail c) := by
  unfold Client.fail
  dsimp only
  split
  · next hclosed =>
    obtain ⟨hstate, -⟩ := Bool.and_eq_true_iff.1 hclosed
    obtain ⟨-, hsettles⟩ := Pending.failConnection_settles h.nodup c
      ((cl.wire c).reason.getD (cl.closedError c))
    have hsettled := h.settle hsettles (fun _ d => by split <;> simp)
      (h.tickets.failEach _ _)
    have hwire (d : ConnectionId) (hd : d ≠ c) :
        (({ cl with pending := (cl.pending.failConnection c
          ((cl.wire c).reason.getD (cl.closedError c))).2 }).setWire c
            { cl.wire c with failed := true }).wire d = cl.wire d := by
      rw [wire_setWire, if_neg hd]
      rfl
    refine { hsettled with closed := fun d hd => ?_, late := fun e he hfailed => ?_ }
    · by_cases hdc : d = c
      · subst hdc
        exact of_decide_eq_true hstate
      · exact h.closed d (hwire d hdc ▸ hd)
    · obtain ⟨-, hlot⟩ := hsettles.mem.1 he
      have hother : e.connection ≠ c := fun heq => by
        rw [if_pos heq] at hlot
        cases hlot
      exact hsettled.late e he (hwire _ hother ▸ hfailed)
  · exact h

/-! ### Moves -/

/-- **Every step keeps calls attended**, as long as those who go away are known to have left. -/
theorem step (action : Action)
    (hleft : ∀ d t, cl.leaves? action = some d → d.ticket = some t → left t) :
    Attended left (cl.step action) := by
  cases action with
  | call address wish => exact h.start rfl _
  | proceed n => exact h.onCall fun call hn => h.proceed hn
  | writerGone n => exact h.onCall fun call hn => h.refuseFrame hn
  | timeOut n => exact h.onCall fun call hn => h.expire hn
  | abandon n => exact h.onCall fun call hn => h.giveUp hn hleft
  | pool a =>
    unfold Client.step
    dsimp only
    split
    · exact h.poolStep a
    · exact h
  | receive c chunk => exact h.receive c chunk
  | handle c => exact h.handle c
  | endOfStream c | readFails c reason => exact h.stopReading c _
  | write c => exact h.write c
  | writeFails c reason => exact h.failWriting c reason
  | fail c => exact h.fail c
  | shutDown =>
    unfold Client.step
    dsimp only
    split
    · exact h.setClosing _
    · exact h
  | shutPool =>
    unfold Client.step
    dsimp only
    split
    · exact (h.poolStep .shutDown).setClosing _
    · exact h
  | failAll =>
    unfold Client.step
    dsimp only
    split
    · refine (h.settle (Pending.failAll_settles h.nodup _).2 (fun _ _ => ?_)
        (h.tickets.failEach _ _)).setClosing _
      simp
    · exact h

theorem move (m : Move)
    (hleft : ∀ a d t, m = .act a → cl.leaves? a = some d → d.ticket = some t → left t) :
    Attended left (cl.move m) := by
  cases m with
  | act a => exact h.step a fun d t => hleft a d t rfl
  | post address message => exact h.start rfl cl.ids
  | usePool a => exact h.poolStep a

end Attended

end RemoteCall.Transport.Client
