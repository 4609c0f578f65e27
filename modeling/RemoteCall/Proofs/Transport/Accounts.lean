import Mathlib.Algebra.Group.Nat.Defs
import RemoteCall.Proofs.Transport.Courses
import RemoteCall.Proofs.Transport.Ledger
import RemoteCall.Proofs.Transport.Settling

/-! The table of pending calls and the courses of the calls.

`Accounts` says that the history tells all about the table: it holds exactly the calls whose
course is pending, the ticket of a settled call holds what settled it, and a call that is over
has ended with that (`Ending`). Each change that a step makes to the calls and to the table
keeps the accounts: an event that settles calls (`Accounts.settle`), a call that goes on
(`Accounts.goOn`), leaves (`Accounts.drop`, `Accounts.quit`) or enters the table
(`Accounts.enter`), and a new one (`Accounts.start`). -/
namespace RemoteCall.Transport

variable {h : List Event} {ev : Event} {n m : CallId} {c : ConnectionId} {lot : Ticket}

/-- How a call to an address has ended. -/
inductive Ending (config : TransportConfig) (h : List Event) (n : CallId) (address : String) :
    Answer → Prop
  /-- It has not been in the table. -/
  | refused (e : CallError) (hc : course n h = .outside) : Ending config h n address (.error e)
  | settled {c : ConnectionId} {a : Answer} (hc : course n h = .settled c (.answered a)) :
    Ending config h n address a
  | timedOut {c : ConnectionId} (hc : course n h = .settled c .closed) (hev : .timedOut n ∈ h) :
    Ending config h n address
      (.error (.transport (.responseTimeout (requestIdOf n) config.responseTimeout.toNat)))
  | unsent {c : ConnectionId} {lot : Ticket} (hc : course n h = .settled c lot)
    (hev : .unsent n ∈ h) :
    Ending config h n address (.error (.transport (.connectionClosed address)))

/-- What a call has is what its course says. -/
structure Fine (config : TransportConfig) (h : List Event) (p : Pending) (n : CallId)
    (call : ClientCall) : Prop where
  early : call.phase = .starting ∨ (∃ a, call.phase = .acquiring a) → course n h = .outside
  held : ∀ t, call.phase.ticket? = some t → ∃ c, call.phase.connection? = some c ∧
    (course n h = .pending c ∧ p.ticket t = .waiting ∨
      ∃ a, course n h = .settled c (.answered a) ∧ p.ticket t = .answered a)
  ended : ∀ a, call.phase = .ended a → Ending config h n call.address a
  inTable : ∀ c, course n h = .pending c → ∃ e ∈ p.calls, e.requestId = requestIdOf n ∧
    e.connection = c ∧ ∀ t, call.phase.ticket? = some t → e.ticket = t

structure Accounts (config : TransportConfig) (calls : List ClientCall) (p : Pending)
    (h : List Event) : Prop where
  tickets : Tickets (fun _ _ => True) calls p
  few : calls.length < 2 ^ 64
  number : ∀ (n : CallId) (call : ClientCall), calls[n]? = some call → call.id = requestIdOf n
  nodup : p.ids.Nodup
  entry : ∀ e ∈ p.calls, ∃ n, n < calls.length ∧ e.requestId = requestIdOf n ∧
    course n h = .pending e.connection
  apart : ∀ (n m : CallId) (call other : ClientCall) (t : TicketId), calls[n]? = some call →
    calls[m]? = some other → call.phase.ticket? = some t → other.phase.ticket? = some t → n = m
  unborn : ∀ n, calls.length ≤ n → course n h = .outside
  fine : ∀ (n : CallId) (call : ClientCall), calls[n]? = some call → Fine config h p n call
  once : ∀ n, h.countP (Event.isEntry n) ≤ 1

variable {config : TransportConfig} {calls : List ClientCall} {p q : Pending} {call : ClientCall}
  {phase : CallPhase} {t : TicketId}

/-- As long as not all ids were given out, two calls have different ones. -/
theorem requestIdOf_inj (hn : n + 1 < 2 ^ 64) (hm : m + 1 < 2 ^ 64)
    (hid : requestIdOf n = requestIdOf m) : n = m := by
  have htoNat {k : CallId} (hk : k + 1 < 2 ^ 64) : (requestIdOf k).toNat = k + 1 :=
    UInt64.toNat_ofNat_of_lt' hk
  have := (htoNat hn).symm.trans ((congrArg UInt64.toNat hid).trans (htoNat hm))
  exact Nat.succ.inj this

section Ending
variable {address : String} {answer : Answer}

/-- A call that is over is over, whatever comes. -/
theorem Ending.concat (hend : Ending config h n address answer) (hev : ∀ c, ev ≠ .entered n c) :
    Ending config (h ++ [ev]) n address answer := by
  have hsettled {c : ConnectionId} {lot : Ticket} (hc : course n h = .settled c lot) :
      course n (h ++ [ev]) = .settled c lot := by
    rw [course_concat, hc]
    rfl
  cases hend with
  | refused e hc =>
    refine .refused e ?_
    rw [course_concat, hc, Course.next_outside hev]
  | settled hc => exact .settled (hsettled hc)
  | timedOut hc hmem => exact .timedOut (hsettled hc) (List.mem_append_left _ hmem)
  | unsent hc hmem => exact .unsent (hsettled hc) (List.mem_append_left _ hmem)

theorem Ending.not_pending (hend : Ending config h n address answer) :
    course n h ≠ .pending c := by
  cases hend with
  | refused _ hc | settled hc | timedOut hc _ | unsent hc _ =>
    rw [hc]
    nofun

end Ending

/-- An event that settles calls, as one of them sees it. -/
theorem Fine.settle (hfine : Fine config h p n call) (hnodup : p.ids.Nodup)
    (hq : Pending.Settles p q fun id c => ev.lot id c) (hev : ∀ c, ev ≠ .entered n c)
    (howner : ∀ e ∈ p.calls, call.phase.ticket? = some e.ticket → e.requestId = requestIdOf n)
    (hclosed : ∀ t c, call.phase.ticket? = some t → ev.lot (requestIdOf n) c ≠ some .closed) :
    Fine config (h ++ [ev]) q n call where
  early hearly := by rw [course_concat, hfine.early hearly, Course.next_outside hev]
  held t ht := by
    obtain ⟨c, hc, ⟨hcourse, hwaits⟩ | ⟨a, hcourse, hanswer⟩⟩ := hfine.held t ht
    · refine ⟨c, hc, ?_⟩
      obtain ⟨e, he, hid, hconnection, hticket⟩ := hfine.inTable c hcourse
      have hhit (x : Ticket) (hx : ev.lot (requestIdOf n) c = some x) : q.ticket t = x := by
        have := hq.hit e he x (by rw [hid, hconnection]; exact hx)
        rw [hticket t ht] at this
        exact this hwaits
      cases hlot : ev.lot (requestIdOf n) c with
      | none =>
        refine .inl ⟨by rw [course_concat, hcourse, Course.next_miss hlot], ?_⟩
        refine (hq.spared t fun d hd hdt => ?_).trans hwaits
        have hsame := howner d hd (by rw [ht, hdt])
        rw [Pending.entry_unique hnodup hd he (hsame.trans hid.symm), hid, hconnection]
        exact hlot
      | some x =>
        cases x with
        | waiting => exact absurd rfl (Event.lot_ne_waiting hlot)
        | closed => exact absurd hlot (hclosed t c ht)
        | answered a =>
          exact .inr ⟨a, by rw [course_concat, hcourse, Course.next_hit hlot], hhit _ hlot⟩
    · refine ⟨c, hc, .inr ⟨a, by rw [course_concat, hcourse]; rfl, ?_⟩⟩
      exact (hq.decided t (by rw [hanswer]; nofun)).trans hanswer
  ended a ha := (hfine.ended a ha).concat hev
  inTable c hc := by
    rw [course_concat] at hc
    obtain ⟨-, heq⟩ | ⟨hbefore, hlot⟩ := Course.next_eq_pending hc
    · exact absurd heq (hev c)
    · obtain ⟨e, he, hid, hconnection, hticket⟩ := hfine.inTable c hbefore
      refine ⟨e, hq.mem.2 ⟨he, ?_⟩, hid, hconnection, hticket⟩
      rw [hid, hconnection]
      exact hlot

/-- A table that is the same to a call. -/
theorem Fine.keep (hfine : Fine config h p n call) (hcalls : p.calls ⊆ q.calls)
    (hticket : ∀ t, call.phase.ticket? = some t → q.ticket t = p.ticket t) :
    Fine config h q n call where
  early := hfine.early
  held t ht := by
    rw [hticket t ht]
    exact hfine.held t ht
  ended := hfine.ended
  inTable c hc := by
    obtain ⟨e, he, hrest⟩ := hfine.inTable c hc
    exact ⟨e, hcalls he, hrest⟩

namespace Accounts

variable (hacc : Accounts config calls p h)
include hacc

theorem numbered (hn : n < calls.length) : n + 1 < 2 ^ 64 := Nat.lt_of_le_of_lt hn hacc.few

/-- The entry of a ticket is that of the call that holds it. -/
theorem owner (hn : calls[n]? = some call) {e : PendingCall} (he : e ∈ p.calls)
    (ht : call.phase.ticket? = some e.ticket) : e.requestId = requestIdOf n :=
  (hacc.tickets.owner e he call (List.mem_of_getElem? hn) ht).symm.trans (hacc.number n call hn)

theorem concat_once (n : CallId) (hev : ∀ c, ev = .entered n c → course n h = .outside) :
    (h ++ [ev]).countP (Event.isEntry n) ≤ 1 := by
  rw [List.countP_append, List.countP_singleton]
  split
  · next hentry =>
    cases ev with
    | entered m c =>
      obtain rfl : m = n := of_decide_eq_true hentry
      exact Nat.le_of_eq (congrArg (· + 1) (countP_isEntry (hev c rfl)))
    | _ => cases hentry
  · exact hacc.once n

/-- An event that settles calls. A call that still has its ticket is not settled without an
answer. -/
theorem settle (hq : Pending.Settles p q fun id c => ev.lot id c)
    (ht : Tickets (fun _ _ => True) calls q) (hev : ∀ n c, ev ≠ .entered n c)
    (hclosed : ∀ n call, calls[n]? = some call → call.phase.ticket? ≠ none → ∀ c,
      ev.lot (requestIdOf n) c ≠ some .closed) :
    Accounts config calls q (h ++ [ev]) where
  tickets := ht
  few := hacc.few
  number := hacc.number
  nodup := hq.nodup hacc.nodup
  entry e he := by
    obtain ⟨he, hlot⟩ := hq.mem.1 he
    obtain ⟨n, hn, hid, hcourse⟩ := hacc.entry e he
    refine ⟨n, hn, hid, ?_⟩
    rw [course_concat, hcourse]
    exact Course.next_miss (hid ▸ hlot)
  apart := hacc.apart
  unborn n hn := by rw [course_concat, hacc.unborn n hn, Course.next_outside (hev n)]
  fine n call hn := by
    refine (hacc.fine n call hn).settle hacc.nodup hq (hev n)
      (fun e he ht => hacc.owner hn he ht) fun t c ht => hclosed n call hn ?_ c
    rw [ht]
    nofun
  once n := hacc.concat_once n fun c heq => absurd heq (hev n c)

/-- An event that concerns nobody. -/
theorem skip (hlot : ∀ id c, ev.lot id c = none) (hev : ∀ n c, ev ≠ .entered n c) :
    Accounts config calls p (h ++ [ev]) :=
  hacc.settle ((Pending.Settles.nothing p).congr fun _ _ => (hlot _ _).symm) hacc.tickets hev
    fun _ _ _ _ _ hclosed => nomatch (hlot _ _).symm.trans hclosed

/-- A call goes on, and may lay a hand on the ticket that it holds. -/
theorem goOn (hn : calls[n]? = some call)
    (ht : Tickets (fun _ _ => True) (calls.modify n fun c => { c with phase := phase }) q)
    (hcalls : q.calls = p.calls)
    (hothers : ∀ t, call.phase.ticket? ≠ some t → q.ticket t = p.ticket t)
    (hphase : ∀ t, phase.ticket? = some t → call.phase.ticket? = some t)
    (hfine : Fine config h q n { call with phase := phase }) :
    Accounts config (calls.modify n fun c => { c with phase := phase }) q h where
  tickets := ht
  few := by
    rw [List.length_modify]
    exact hacc.few
  number m other hm := by
    obtain ⟨rfl, rfl⟩ | ⟨-, hm⟩ := of_getElem?_modify hn hm
    · exact hacc.number m call hn
    · exact hacc.number m other hm
  nodup := by
    rw [Pending.ids, hcalls]
    exact hacc.nodup
  entry e he := by
    rw [List.length_modify]
    exact hacc.entry e (hcalls ▸ he)
  apart i j one other t hi hj hone hother := by
    have hold {k : CallId} {x : ClientCall}
        (hk : (calls.modify n fun c => { c with phase := phase })[k]? = some x)
        (hx : x.phase.ticket? = some t) :
        ∃ y, calls[k]? = some y ∧ y.phase.ticket? = some t := by
      obtain ⟨rfl, rfl⟩ | ⟨-, hk⟩ := of_getElem?_modify hn hk
      · exact ⟨call, hn, hphase t hx⟩
      · exact ⟨x, hk, hx⟩
    obtain ⟨y, hy, hyt⟩ := hold hi hone
    obtain ⟨z, hz, hzt⟩ := hold hj hother
    exact hacc.apart i j y z t hy hz hyt hzt
  unborn m hm := hacc.unborn m (by rwa [List.length_modify] at hm)
  fine m other hm := by
    obtain ⟨rfl, rfl⟩ | ⟨hne, hm⟩ := of_getElem?_modify hn hm
    · exact hfine
    · refine (hacc.fine m other hm).keep (hcalls ▸ List.Subset.refl _)
        fun t ht => hothers t fun htn => ?_
      exact hne (hacc.apart m n other call t hm hn ht htn)
  once := hacc.once

/-- A new call. -/
theorem start (hid : call.id = requestIdOf calls.length) (hphase : call.phase = .starting)
    (hfew : (calls ++ [call]).length < 2 ^ 64) : Accounts config (calls ++ [call]) p h := by
  have hcases {m : CallId} {other : ClientCall} (hm : (calls ++ [call])[m]? = some other) :
      calls[m]? = some other ∨ m = calls.length ∧ other = call := by
    rw [List.getElem?_append] at hm
    split at hm
    · exact .inl hm
    · next hge =>
      obtain ⟨hlt, rfl⟩ := List.getElem?_eq_some_iff.1 hm
      rw [List.length_singleton] at hlt
      have hle := Nat.le_of_sub_eq_zero (Nat.lt_one_iff.1 hlt)
      exact .inr ⟨Nat.le_antisymm hle (Nat.le_of_not_lt hge), List.getElem_singleton _⟩
  have hticket {m : CallId} {other : ClientCall} {t : TicketId}
      (hm : (calls ++ [call])[m]? = some other) (ht : other.phase.ticket? = some t) :
      calls[m]? = some other := by
    obtain hm | ⟨-, rfl⟩ := hcases hm
    · exact hm
    · rw [hphase] at ht
      cases ht
  refine ⟨hacc.tickets.start (by rw [hphase]; rfl), hfew, fun m other hm => ?_, hacc.nodup,
    fun e he => ?_, fun i j one other t hi hj hone hother => ?_, fun m hm => ?_,
    fun m other hm => ?_, hacc.once⟩
  · obtain hm | ⟨rfl, rfl⟩ := hcases hm
    · exact hacc.number m other hm
    · exact hid
  · obtain ⟨m, hm, hrest⟩ := hacc.entry e he
    exact ⟨m, by simpa using Nat.lt_succ_of_lt hm, hrest⟩
  · exact hacc.apart i j one other t (hticket hi hone) (hticket hj hother) hone hother
  · rw [List.length_append] at hm
    exact hacc.unborn m (Nat.le_of_add_right_le hm)
  · obtain hm | ⟨rfl, rfl⟩ := hcases hm
    · exact hacc.fine m other hm
    · have hout := hacc.unborn calls.length (Nat.le_refl _)
      refine ⟨fun _ => hout, fun t ht => ?_, fun a ha => ?_, fun c hc => ?_⟩
      · rw [hphase] at ht
        cases ht
      · rw [hphase] at ha
        cases ha
      · cases hout.symm.trans hc

/-- The ids in the table are those of the pending calls. -/
theorem mem_ids (hn : n + 1 < 2 ^ 64) :
    requestIdOf n ∈ p.ids ↔ ∃ c, course n h = .pending c := by
  refine ⟨fun hmem => ?_, fun ⟨c, hc⟩ => ?_⟩
  · obtain ⟨e, he, hid⟩ := Pending.mem_ids.1 hmem
    obtain ⟨m, hm, hidm, hcourse⟩ := hacc.entry e he
    rw [requestIdOf_inj hn (hacc.numbered hm) (hid.symm.trans hidm)]
    exact ⟨e.connection, hcourse⟩
  · by_cases hlt : n < calls.length
    · obtain ⟨e, he, hid, -⟩ := (hacc.fine n calls[n] (List.getElem?_eq_getElem hlt)).inTable c hc
      exact Pending.mem_ids.2 ⟨e, he, hid⟩
    · cases (hacc.unborn n (Nat.le_of_not_lt hlt)).symm.trans hc

/-- The id of a call that is outside is not in the table. -/
theorem id_not_mem (hn : calls[n]? = some call) (hout : course n h = .outside) :
    call.id ∉ p.ids := by
  rw [hacc.number n call hn, hacc.mem_ids (hacc.numbered (List.getElem?_eq_some_iff.1 hn).1), hout]
  rintro ⟨c, ⟨⟩⟩

/-- A call that has its connection enters the table. -/
theorem enter (hn : calls[n]? = some call) {a : AttemptId} (hphase : call.phase = .acquiring a)
    (c : ConnectionId) :
    Accounts config
      (calls.modify n fun d => { d with phase := .registered a c (p.register call.id c).1 })
      (p.register call.id c).2 (h ++ [.entered n c]) := by
  have hout : course n h = .outside := (hacc.fine n call hn).early (.inr ⟨a, hphase⟩)
  have hnew := hacc.id_not_mem hn hout
  have htickets : Tickets (fun _ _ => True)
      (calls.modify n fun d => { d with phase := .registered a c (p.register call.id c).1 })
      (p.register call.id c).2 := hacc.tickets.register hn c rfl
  rw [Pending.register_new hnew] at htickets ⊢
  dsimp only at htickets ⊢
  have hpending : course n (h ++ [.entered n c]) = .pending c := by
    rw [course_concat, hout, Course.next_entered]
  have hothers {m : CallId} {other : ClientCall} (hne : m ≠ n) (hm : calls[m]? = some other) :
      Fine config (h ++ [.entered n c]) p m other := by
    refine (hacc.fine m other hm).settle hacc.nodup
      ((Pending.Settles.nothing p).congr fun _ _ => rfl) (fun d heq => hne ?_)
      (fun e he ht => hacc.owner hm he ht) fun _ _ _ => nofun
    cases heq
    rfl
  have hstays {m : CallId} {course' : Course} (hne : m ≠ n) (hm : course m h = course') :
      course m (h ++ [.entered n c]) = course' := by
    rw [course_concat, hm]
    cases course' with
    | outside => exact Course.next_outside fun d heq => hne (by cases heq; rfl)
    | pending d => exact Course.next_miss rfl
    | settled d lot => rfl
  refine ⟨htickets, by simpa using hacc.few, fun m other hm => ?_, ?_, fun e he => ?_,
    fun i j one other t hi hj hone hother => ?_, fun m hm => ?_, fun m other hm => ?_,
    fun m => hacc.concat_once m fun d heq => by cases heq; exact hout⟩
  · obtain ⟨rfl, rfl⟩ | ⟨-, hm⟩ := of_getElem?_modify hn hm
    · exact hacc.number m call hn
    · exact hacc.number m other hm
  · rw [Pending.ids, List.map_append]
    refine List.nodup_append.2 ⟨hacc.nodup, List.nodup_singleton _, fun id hid d hd heq => ?_⟩
    rw [heq, List.mem_singleton.1 hd] at hid
    exact hnew hid
  · rw [List.length_modify]
    obtain he | he := List.mem_append.1 he
    · obtain ⟨m, hm, hid, hcourse⟩ := hacc.entry e he
      refine ⟨m, hm, hid, hstays (fun hmn => ?_) hcourse⟩
      rw [hmn, hout] at hcourse
      cases hcourse
    · rw [List.mem_singleton.1 he]
      exact ⟨n, (List.getElem?_eq_some_iff.1 hn).1, hacc.number n call hn, hpending⟩
  · have hfresh {k : CallId} {x : ClientCall} (hk : calls[k]? = some x)
        (hx : x.phase.ticket? = some p.tickets.length) : False :=
      Nat.lt_irrefl _ (hacc.tickets.held x (List.mem_of_getElem? hk) _ hx)
    obtain ⟨hin, rfl⟩ | ⟨-, holdi⟩ := of_getElem?_modify hn hi
    · obtain ⟨hjn, rfl⟩ | ⟨-, holdj⟩ := of_getElem?_modify hn hj
      · exact hin.trans hjn.symm
      · cases hone
        exact (hfresh holdj hother).elim
    · obtain ⟨-, rfl⟩ | ⟨-, holdj⟩ := of_getElem?_modify hn hj
      · cases hother
        exact (hfresh holdi hone).elim
      · exact hacc.apart i j one other t holdi holdj hone hother
  · rw [List.length_modify] at hm
    refine hstays (fun hmn => ?_) (hacc.unborn m hm)
    exact absurd (List.getElem?_eq_some_iff.1 hn).1 (Nat.not_lt.2 (hmn ▸ hm))
  · obtain ⟨rfl, rfl⟩ | ⟨hne, hm⟩ := of_getElem?_modify hn hm
    · refine ⟨fun hearly => ?_, fun t ht => ?_, fun answer ha => (by cases ha), fun d hd => ?_⟩
      · obtain hearly | ⟨b, hearly⟩ := hearly <;> cases hearly
      · cases ht
        exact ⟨c, rfl, .inl ⟨hpending, Pending.ticket_new p _⟩⟩
      · cases hpending.symm.trans hd
        refine ⟨⟨call.id, c, p.tickets.length⟩, List.mem_append_right _ List.mem_cons_self,
          hacc.number m call hn, rfl, fun t ht => ?_⟩
        cases ht
        rfl
    · refine (hothers hne hm).keep (List.subset_append_left _ _) fun t ht => ?_
      exact Pending.ticket_append p (hacc.tickets.held other (List.mem_of_getElem? hm) t ht) _ _

/-- A call leaves, and may use its ticket up. -/
theorem drop (hn : calls[n]? = some call)
    (hq : q = p ∨ ∃ t, call.phase.ticket? = some t ∧ q = p.leave t)
    (hphase : phase = .abandoned ∨ ∃ a, phase = .ended a ∧ Ending config h n call.address a) :
    Accounts config (calls.modify n fun c => { c with phase := phase }) q h := by
  have hover : phase.ticket? = none ∧ phase ≠ .starting ∧ ∀ a, phase ≠ .acquiring a := by
    obtain rfl | ⟨a, rfl, -⟩ := hphase <;> exact ⟨rfl, nofun, nofun⟩
  have hnone {t : TicketId} (ht : phase.ticket? = some t) : False := nomatch hover.1.symm.trans ht
  have htickets : Tickets (fun _ _ => True) calls q := by
    obtain rfl | ⟨t, -, rfl⟩ := hq
    · exact hacc.tickets
    · exact hacc.tickets.leave t
  have hcalls : q.calls = p.calls := by
    obtain rfl | ⟨t, -, rfl⟩ := hq <;> rfl
  refine hacc.goOn hn (htickets.setPhase hn fun t ht => (hnone ht).elim) hcalls (fun u hu => ?_)
    (fun t ht => (hnone ht).elim) ⟨fun hearly => ?_, fun t ht => (hnone ht).elim, fun a ha => ?_,
      fun c hc => ?_⟩
  · obtain rfl | ⟨t, ht, rfl⟩ := hq
    · rfl
    · exact Pending.ticket_leave_of_ne fun hut => hu (hut ▸ ht)
  · obtain hearly | ⟨a, hearly⟩ := hearly
    · exact absurd hearly hover.2.1
    · exact absurd hearly (hover.2.2 a)
  · obtain rfl | ⟨b, rfl, hend⟩ := hphase
    · cases ha
    · cases ha
      exact hend
  · obtain ⟨e, he, hid, hconnection, -⟩ := (hacc.fine n call hn).inTable c hc
    exact ⟨e, hcalls ▸ he, hid, hconnection, fun t ht => (hnone ht).elim⟩

/-- A call takes itself out of the table and ends: it leaves, its entry is settled, and what it
returns is the end that this makes. -/
theorem quit (hn : calls[n]? = some call) (hev : ev = .timedOut n ∨ ev = .unsent n)
    {answer : Answer} (hend : Ending config (h ++ [ev]) n call.address answer) :
    Accounts config (calls.modify n fun c => { c with phase := .ended answer })
      (p.cancel call.id).2 (h ++ [ev]) := by
  have hlot (id : UInt64) (c : ConnectionId) :
      ev.lot id c = if id = requestIdOf n then some .closed else none := by
    obtain rfl | rfl := hev <;> rfl
  have hlt := (List.getElem?_eq_some_iff.1 hn).1
  have hgone : Accounts config (calls.modify n fun c => { c with phase := .abandoned }) p h :=
    hacc.drop hn (.inl rfl) (.inl rfl)
  have hsettles : Pending.Settles p (p.cancel call.id).2 fun id c => ev.lot id c := by
    refine (Pending.settle_settles hacc.nodup call.id .closed).congr fun e _ => ?_
    simp only [hlot, Pending.among, List.mem_singleton, hacc.number n call hn]
  have hsettled := hgone.settle hsettles (hgone.tickets.cancel call.id)
    (fun m c heq => by obtain rfl | rfl := hev <;> cases heq) fun m other hm ht c hclosed => ?_
  · have hn' : (calls.modify n fun c => { c with phase := .abandoned })[n]? =
        some { call with phase := .abandoned } := by
      rw [List.getElem?_modify_eq, hn]
      rfl
    have hended := hsettled.drop hn' (.inl rfl) (.inr ⟨answer, rfl, hend⟩)
    rw [List.modify_modify_eq] at hended
    exact hended
  · obtain ⟨rfl, rfl⟩ | ⟨hne, hm⟩ := of_getElem?_modify hn hm
    · exact ht rfl
    · rw [hlot] at hclosed
      split at hclosed
      · next hid =>
        have hmlt := (List.getElem?_eq_some_iff.1 hm).1
        exact hne (requestIdOf_inj (hacc.numbered hmlt) (hacc.numbered hlt) hid)
      · cases hclosed

end Accounts

end RemoteCall.Transport
