import RemoteCall.Proofs.Transport.Accounts

/-! Every step of a client keeps the accounts.

A step of a call moves that call along, into the table or out of it; a step of a connection
settles calls. In either case the event of the step is what the accounts need to go on
(`Accounted.step`). Only the number of the next id and the address of a connection come from
elsewhere, from the ledger. -/
namespace RemoteCall.Transport.Client

/-- The accounts of a client. -/
abbrev Accounted (cl : Client) (h : List Event) : Prop :=
  Accounts cl.config cl.calls cl.pending h

variable {cl : Client} {h : List Event} {n : CallId} {call : ClientCall} {a : AttemptId}
  {c : ConnectionId} {t : TicketId}

namespace Accounted

variable (hacc : cl.Accounted h)
include hacc

/-! ### Steps of a call -/

/-- A call goes on with what it has. -/
theorem pass (hn : cl.calls[n]? = some call) {phase : CallPhase}
    (hticket : phase.ticket? = call.phase.ticket?)
    (hconnection : phase.connection? = call.phase.connection?) (hsome : phase.ticket?.isSome) :
    (cl.setPhase n phase).Accounted h := by
  have hfine := hacc.fine n call hn
  refine hacc.goOn hn (hacc.tickets.setPhase hn fun t ht => hticket ▸ ht) rfl (fun _ _ => rfl)
    (fun t ht => hticket ▸ ht) ⟨fun hearly => ?_, fun t ht => ?_, fun a ha => ?_, fun c hc => ?_⟩
  · obtain hearly | ⟨a, hearly⟩ := hearly
    · obtain rfl : phase = .starting := hearly
      cases hsome
    · obtain rfl : phase = .acquiring a := hearly
      cases hsome
  · obtain ⟨c, hc, hrest⟩ := hfine.held t (hticket ▸ ht)
    exact ⟨c, hconnection.trans hc, hrest⟩
  · obtain rfl : phase = .ended a := ha
    cases hsome
  · obtain ⟨e, he, hid, hec, het⟩ := hfine.inTable c hc
    exact ⟨e, he, hid, hec, fun t ht => het t (hticket ▸ ht)⟩

/-- A call that is not in the table yet ends. -/
theorem refuse (hn : cl.calls[n]? = some call)
    (hearly : call.phase = .starting ∨ ∃ a, call.phase = .acquiring a) (e : CallError) :
    (cl.setPhase n (.ended (.error e))).Accounted h :=
  hacc.drop hn (.inl rfl) (.inr ⟨.error e, rfl, .refused e ((hacc.fine n call hn).early hearly)⟩)

theorem begin (hn : cl.calls[n]? = some call) (hphase : call.phase = .starting) :
    (cl.begin n call).Accounted h := by
  unfold Client.begin
  split
  · exact hacc.refuse hn (.inl hphase) _
  · split
    · exact hacc.refuse hn (.inl hphase) _
    · have hout := (hacc.fine n call hn).early (.inl hphase)
      refine hacc.goOn hn (hacc.tickets.setPhase hn fun t ht => by cases ht) rfl (fun _ _ => rfl)
        (fun t ht => by cases ht) ⟨fun _ => hout, fun t ht => ?_, fun a ha => ?_, fun c hc => ?_⟩
      · cases ht
      · cases ha
      · cases hout.symm.trans hc

theorem enter (hn : cl.calls[n]? = some call) (hphase : call.phase = .acquiring a) :
    (cl.enter n call a).Accounted (h ++ (cl.proceedEvent? n call).toList) := by
  unfold Client.enter proceedEvent?
  rw [hphase]
  dsimp only
  cases cl.pool.phase? a with
  | none => simpa using hacc
  | some p =>
    cases p with
    | leased c => exact Accounts.enter hacc hn hphase c
    | failed e => simpa using hacc.refuse hn (.inr ⟨a, hphase⟩) _
    | _ => simpa using hacc

/-- A call that cannot be sent has its entry taken out, if it is still there. -/
theorem withdraw (hledger : Ledger (fun _ _ => True) cl) (hn : cl.calls[n]? = some call)
    (hticket : call.phase.ticket? = some t) (hconnection : call.phase.connection? = some c) :
    (cl.withdraw n call a c).Accounted (h ++ [.unsent n]) := by
  have haddress : cl.closedError c = .transport (.connectionClosed call.address) := by
    rw [closedError, (hledger.leading call (List.mem_of_getElem? hn) c hconnection).addressOf]
  have hunsent : Event.unsent n ∈ h ++ [.unsent n] := by simp
  have hend : Ending cl.config (h ++ [.unsent n]) n call.address (.error (cl.closedError c)) := by
    rw [haddress]
    obtain ⟨d, -, ⟨hcourse, -⟩ | ⟨answer, hcourse, -⟩⟩ := (hacc.fine n call hn).held t hticket
    · have hlot : (Event.unsent n).lot (requestIdOf n) d = some .closed := if_pos rfl
      have hsettled : course n (h ++ [.unsent n]) = .settled d .closed := by
        rw [course_concat, hcourse, Course.next_hit hlot]
      exact .unsent hsettled hunsent
    · have hsettled : course n (h ++ [.unsent n]) = .settled d (.answered answer) := by
        rw [course_concat, hcourse]
        rfl
      exact .unsent hsettled hunsent
  exact hacc.quit hn (.inr rfl) hend

/-- A call ends with what its ticket holds. -/
theorem look (hn : cl.calls[n]? = some call) (hphase : call.phase = .waiting c t) :
    (cl.look n c t).Accounted h := by
  have hticket : call.phase.ticket? = some t := by rw [hphase]; rfl
  obtain ⟨d, -, ⟨hcourse, hlot⟩ | ⟨answer, hcourse, hlot⟩⟩ :=
    (hacc.fine n call hn).held t hticket
  · rw [Client.look, Pending.collect, hlot]
    exact hacc
  · rw [Client.look, Pending.collect, hlot]
    exact hacc.drop hn (.inr ⟨t, hticket, rfl⟩) (.inr ⟨answer, rfl, .settled hcourse⟩)

/-- **The next step of a call.** -/
theorem proceed (hledger : Ledger (fun _ _ => True) cl) (hn : cl.calls[n]? = some call) :
    (cl.proceed n call).Accounted (h ++ (cl.proceedEvent? n call).toList) := by
  cases hphase : call.phase with
  | starting =>
    rw [Client.proceed, proceedEvent?, hphase]
    simpa using hacc.begin hn hphase
  | acquiring a =>
    rw [Client.proceed, hphase]
    exact hacc.enter hn hphase
  | registered a c t =>
    rw [Client.proceed, proceedEvent?, hphase]
    dsimp only
    split
    · exact hacc.withdraw hledger hn (by rw [hphase]; rfl) (by rw [hphase]; rfl)
    · simpa using hacc.pass hn (by rw [hphase]; rfl) (by rw [hphase]; rfl) rfl
  | checked a c t =>
    rw [Client.proceed, proceedEvent?, hphase, Option.toList_none, List.append_nil]
    dsimp only
    unfold Client.enqueue
    dsimp only
    split
    · exact hacc
    · split
      · exact hacc.pass hn (by rw [hphase]; rfl) (by rw [hphase]; rfl) rfl
      · exact hacc
  | queued a c t =>
    rw [Client.proceed, proceedEvent?, hphase, Option.toList_none, List.append_nil]
    exact hacc.pass hn (by rw [hphase]; rfl) (by rw [hphase]; rfl) rfl
  | waiting c t =>
    rw [Client.proceed, proceedEvent?, hphase, Option.toList_none, List.append_nil]
    exact hacc.look hn hphase
  | ended answer | abandoned =>
    rw [Client.proceed, proceedEvent?, hphase, Option.toList_none, List.append_nil]
    exact hacc

theorem refuseFrame (hledger : Ledger (fun _ _ => True) cl) (hn : cl.calls[n]? = some call) :
    (cl.refuseFrame n call).Accounted (h ++ (cl.refusalEvent? n call).toList) := by
  unfold Client.refuseFrame refusalEvent?
  cases hphase : call.phase with
  | checked a c t =>
    dsimp only
    split
    · exact hacc.withdraw hledger hn (by rw [hphase]; rfl) (by rw [hphase]; rfl)
    · simpa using hacc
  | _ => simpa using hacc

/-- A call that has waited for too long takes out its own entry. -/
theorem expire (hn : cl.calls[n]? = some call) :
    (cl.expire n call).Accounted (h ++ (cl.expiryEvent? n call).toList) := by
  unfold Client.expire expiryEvent?
  cases hphase : call.phase with
  | waiting c t =>
    dsimp only
    split
    · next hwaits =>
      have hlot : (Event.timedOut n).lot (requestIdOf n) c = some .closed := if_pos rfl
      have hticket : call.phase.ticket? = some t := by rw [hphase]; rfl
      have hconnection : call.phase.connection? = some c := by rw [hphase]; rfl
      have hid : call.message.header.requestId = requestIdOf n := hacc.number n call hn
      have hsettled : course n (h ++ [.timedOut n]) = .settled c .closed := by
        obtain ⟨d, hd, ⟨hcourse, -⟩ | ⟨answer, -, hanswer⟩⟩ :=
          (hacc.fine n call hn).held t hticket
        · cases hconnection.symm.trans hd
          rw [course_concat, hcourse, Course.next_hit hlot]
        · rw [hanswer] at hwaits
          cases hwaits
      refine hacc.quit hn (.inl rfl) ?_
      rw [hid]
      exact .timedOut hsettled (by simp)
    · simpa using hacc
  | _ => simpa using hacc

theorem giveUp (hn : cl.calls[n]? = some call) : (cl.giveUp n call).Accounted h := by
  unfold Client.giveUp
  cases hphase : call.phase with
  | acquiring a =>
    dsimp only
    split
    · exact hacc.drop hn (.inl rfl) (.inl rfl)
    · exact hacc.drop hn (.inl rfl) (.inl rfl)
    · exact hacc
  | checked a c t | waiting c t =>
    exact hacc.drop hn (.inr ⟨t, by rw [hphase]; rfl, rfl⟩) (.inl rfl)
  | _ => exact hacc

/-! ### Steps of a connection -/

/-- An item that is handled settles the call with its id, if that is pending. -/
theorem takeItem (c : ConnectionId) (item : FrameItem) :
    (cl.takeItem item).Accounted (h ++ [.arrived c item]) := by
  unfold Client.takeItem
  cases hanswer : answerOf item with
  | none =>
    refine Accounts.skip hacc (fun id d => ?_) fun n d => nofun
    rw [Event.lot, hanswer]
  | some pair =>
    obtain ⟨id, answer⟩ := pair
    have hlot (other : UInt64) (d : ConnectionId) : (Event.arrived c item).lot other d =
        if other = id then some (.answered answer) else none := by
      rw [Event.lot, hanswer]
    refine Accounts.settle hacc ((Pending.settle_settles hacc.nodup id (.answered answer)).congr
      fun e _ => ?_) (hacc.tickets.resolve fun _ _ _ _ => trivial) (fun n d => nofun)
      fun n call hn ht d hclosed => ?_
    · rw [hlot, Pending.among]
      simp
    · rw [hlot] at hclosed
      split at hclosed <;> cases hclosed

theorem mark (c : ConnectionId) (w : Wire) (reason : CallError) :
    (cl.mark c w reason).Accounted h := by
  unfold Client.mark
  split <;> exact hacc

theorem handle (c : ConnectionId) :
    (cl.handle c).Accounted (h ++ (cl.event? (.handle c)).toList) := by
  unfold Client.handle
  rw [event?]
  dsimp only
  cases hinbox : (cl.wire c).inbox with
  | cons item rest =>
    have hwire : (cl.setWire c { cl.wire c with inbox := rest }).Accounted h := hacc
    exact hwire.takeItem c item
  | nil =>
    rw [List.head?_nil, Option.map_none, Option.toList_none, List.append_nil]
    dsimp only
    split
    · exact hacc.mark c _ _
    · exact hacc

theorem stopReading (c : ConnectionId) (reason : CallError) :
    (cl.stopReading c reason).Accounted h := by
  unfold Client.stopReading
  dsimp only
  split
  · exact hacc.mark c _ _
  · exact hacc

/-- The end of a connection settles the calls on it and no others. -/
theorem fail (c : ConnectionId) : (cl.fail c).Accounted (h ++ (cl.event? (.fail c)).toList) := by
  unfold Client.fail
  rw [event?]
  dsimp only
  split
  · refine Accounts.settle hacc (Pending.failConnection_settles hacc.nodup c _).2
      (hacc.tickets.failEach _ _) (fun _ _ => nofun) fun n call hn ht d hclosed => ?_
    rw [Event.lot] at hclosed
    split at hclosed <;> cases hclosed
  · simpa using hacc

theorem failAll :
    Accounts cl.config cl.calls (cl.pending.failAll (.transport .shutDown)).2 (h ++ [.shut]) :=
  Accounts.settle hacc (Pending.failAll_settles hacc.nodup _).2
    (hacc.tickets.failEach _ _) (fun _ _ => nofun) fun _ _ _ _ _ => nofun

/-! ### Steps -/

theorem onCall {f : Client → CallId → ClientCall → Client} {event : ClientCall → Option Event}
    (hf : ∀ call, cl.calls[n]? = some call → (f cl n call).Accounted (h ++ (event call).toList)) :
    (cl.onCall n f).Accounted (h ++ ((cl.calls[n]?).bind event).toList) := by
  unfold Client.onCall
  cases hn : cl.calls[n]? with
  | some call => exact hf call hn
  | none => simpa using hacc

theorem abandon (n : CallId) : (cl.onCall n Client.giveUp).Accounted h := by
  unfold Client.onCall
  split
  · next call hn => exact hacc.giveUp hn
  · exact hacc

theorem receive (c : ConnectionId) (chunk : Bytes) :
    (cl.receive c chunk).Accounted (h ++ (cl.event? (.receive c chunk)).toList) := by
  unfold Client.receive
  rw [event?, takes]
  dsimp only
  split
  · exact Accounts.skip hacc (fun _ _ => rfl) fun _ _ => nofun
  · simpa using hacc

theorem write (c : ConnectionId) : (cl.write c).Accounted h := by
  unfold Client.write
  dsimp only
  split <;> exact hacc

theorem failWriting (c : ConnectionId) (reason : String) :
    (cl.failWriting c reason).Accounted h := by
  unfold Client.failWriting
  split
  · exact hacc.mark c _ _
  · exact hacc

theorem startCall (hledger : Ledger (fun _ _ => True) cl) (address : String) (wish : Wish)
    (hfew : (cl.start address wish).calls.length < 2 ^ 64) :
    (cl.start address wish).Accounted h := by
  refine Accounts.start hacc ?_ rfl hfew
  have hid : cl.ids.next = requestIdOf cl.calls.length := by
    rw [hledger.next, letters, List.length_map]
    rfl
  cases wish <;> exact hid

/-- **Every step keeps the accounts.** -/
theorem step (hledger : Ledger (fun _ _ => True) cl) (action : Action)
    (hfew : (cl.step action).calls.length < 2 ^ 64) :
    (cl.step action).Accounted (h ++ (cl.event? action).toList) := by
  cases action with
  | proceed n => exact hacc.onCall fun call hn => hacc.proceed hledger hn
  | writerGone n => exact hacc.onCall fun call hn => hacc.refuseFrame hledger hn
  | timeOut n => exact hacc.onCall fun call hn => hacc.expire hn
  | receive c chunk => exact hacc.receive c chunk
  | handle c => exact hacc.handle c
  | fail c => exact hacc.fail c
  | failAll =>
    rw [Client.step, event?]
    split
    · exact hacc.failAll
    · simpa using hacc
  | call address wish =>
    rw [event?, Option.toList_none, List.append_nil]
    exact hacc.startCall hledger address wish hfew
  | abandon n =>
    rw [event?, Option.toList_none, List.append_nil]
    exact hacc.abandon n
  | endOfStream c | readFails c reason =>
    rw [event?, Option.toList_none, List.append_nil]
    exact hacc.stopReading c _
  | write c =>
    rw [event?, Option.toList_none, List.append_nil]
    exact hacc.write c
  | writeFails c reason =>
    rw [event?, Option.toList_none, List.append_nil]
    exact hacc.failWriting c reason
  | pool a =>
    rw [event?, Option.toList_none, List.append_nil, Client.step]
    split <;> exact hacc
  | shutDown | shutPool =>
    rw [event?, Option.toList_none, List.append_nil, Client.step]
    split <;> exact hacc

end Accounted
end RemoteCall.Transport.Client
