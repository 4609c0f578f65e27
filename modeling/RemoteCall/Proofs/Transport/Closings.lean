import RemoteCall.Proofs.Transport.Attendance

/-! No call is left behind on a closed connection.

A call enters the table of pending calls and looks at its connection after that; a closing marks
the connection first and fails the calls on it after that. So whatever comes in between what, a
call that still is in the table when a closing is complete has yet to look, and will find the
connection closed (`none_stranded`).

This is so for messages with any ids, sent by anybody, and for connections that are used and closed
past the client. What carries it is `Attended`: every entry on a connection whose closing is
complete belongs to a call that has only just registered, and a ticket that waits has its entry in
the table. -/
namespace RemoteCall.Transport.Client

variable {cl : Client} {n : CallId} {call : ClientCall} {a : AttemptId} {c : ConnectionId}
  {t : TicketId}

/-! ### Calls and connections later on -/

/-- Calls are attended, whoever goes away. -/
theorem attended_play (h : cl.Attended fun _ => True) (moves : List Move) :
    (cl.play moves).Attended fun _ => True := by
  induction moves generalizing cl with
  | nil => exact h
  | cons m rest ih => exact ih (h.move m fun _ _ _ _ _ _ => trivial)

theorem grows_move (h : cl.pool.Sound) (m : Move) : cl.pool.Grows (cl.move m).pool := by
  cases m with
  | act action =>
    rcases turns_step cl action with hsame | ⟨b, hstep, -⟩
    · rw [move, hsame]
      exact .refl _
    · rw [move, hstep]
      exact .step h b
  | post address message => exact .refl _
  | usePool b => exact .step h b

/-! ### A call that has yet to look -/

theorem socketClosed_of_closed (hc : cl.pool.state? c = some .closed) :
    cl.pool.socketClosed c = true := by
  obtain ⟨s, hs, hstate⟩ := Option.map_eq_some_iff.1 hc
  simp [Pool.socketClosed, hs, Socket.isClosed, hstate]

/-- A connection that is closed still leads to where it led. -/
theorem Attended.closedError_move {left : TicketId → Prop} (h : cl.Attended left)
    (hc : cl.pool.state? c = some .closed)
    (m : Move) : (cl.move m).closedError c = cl.closedError c := by
  obtain ⟨s, hs, -⟩ := Option.map_eq_some_iff.1 hc
  have hleads := Pool.leads_of_home h.sound (show cl.pool.home? c = some s.pool by
    rw [Pool.home?, hs]
    rfl)
  rw [closedError, closedError, ((grows_move h.sound m).leads hleads).addressOf]

/-- A call that looks at a closed connection cancels its entry and ends. -/
theorem proceed_of_closed (hn : cl.calls[n]? = some call)
    (hphase : call.phase = .registered a c t) (hc : cl.pool.state? c = some .closed) :
    cl.step (.proceed n) = cl.withdraw n call a c := by
  show cl.onCall n proceed = _
  unfold onCall
  rw [hn]
  dsimp only
  rw [proceed, hphase]
  exact if_pos (socketClosed_of_closed hc)

theorem answer?_withdraw (hn : cl.calls[n]? = some call) :
    (cl.withdraw n call a c).answer? n = some (.error (cl.closedError c)) := by
  have hcalls : (cl.withdraw n call a c).calls[n]? =
      some { call with phase := .ended (.error (cl.closedError c)) } := by
    show (cl.calls.modify n _)[n]? = _
    rw [List.getElem?_modify_eq, hn]
    rfl
  rw [answer?, hcalls]

/-- What there is of a call that is registered on a closed connection, then and later on. -/
def Bound (n : CallId) (a : AttemptId) (c : ConnectionId) (t : TicketId) (e : CallError)
    (cl : Client) : Prop :=
  (∃ call, cl.calls[n]? = some call ∧ call.phase = .registered a c t) ∨
    cl.answer? n = some (.error e)

theorem still_move (hn : cl.calls[n]? = some call) {m : Move}
    (hproceed : m = .act (.proceed n) → cl.proceed n call = cl)
    (hrefuse : cl.refuseFrame n call = cl) (hexpire : cl.expire n call = cl)
    (hgiveUp : cl.giveUp n call = cl) : (cl.move m).calls[n]? = some call := by
  cases m with
  | act action =>
    exact still_step hn (fun haction => hproceed (congrArg Move.act haction)) hrefuse hexpire hgiveUp
  | post address message =>
    exact (List.getElem?_append_left (List.getElem?_eq_some_iff.1 hn).1).trans hn
  | usePool b => exact hn

/-- It has yet to look, or finds its connection closed. -/
theorem Bound.move (h : cl.Bound n a c t (cl.closedError c))
    (hc : cl.pool.state? c = some .closed) (m : Move) :
    (cl.move m).Bound n a c t (cl.closedError c) := by
  obtain ⟨call, hn, hphase⟩ | hended := h
  · by_cases hm : m = .act (.proceed n)
    · right
      subst hm
      show (cl.step (.proceed n)).answer? n = _
      rw [proceed_of_closed hn hphase hc]
      exact answer?_withdraw hn
    · exact .inl ⟨call, still_move hn (fun heq => absurd heq hm)
        (by rw [Client.refuseFrame, hphase]) (by rw [Client.expire, hphase])
        (by rw [Client.giveUp, hphase]), hphase⟩
  · right
    rw [answer?] at hended
    split at hended
    · next address message answer hn =>
      cases hended
      rw [answer?, still_move (m := m) hn (fun _ => rfl) rfl rfl rfl]
    · cases hended

theorem Bound.play (hbound : cl.Bound n a c t (cl.closedError c)) (h : cl.Attended fun _ => True)
    (hc : cl.pool.state? c = some .closed) (moves : List Move) :
    (cl.play moves).Bound n a c t (cl.closedError c) := by
  induction moves generalizing cl with
  | nil => exact hbound
  | cons m rest ih =>
    have hstays := (grows_move h.sound m).ended hc rfl
    have hnext := hbound.move hc m
    rw [← h.closedError_move hc m] at hnext ⊢
    exact ih hnext (h.move m fun _ _ _ _ _ _ => trivial) hstays

/-! ### Closings -/

/-- A call that holds the ticket of an entry on a closed connection has yet to look. -/
theorem Attended.registered {left : TicketId → Prop} (h : cl.Attended left)
    {e : PendingCall} (he : e ∈ cl.pending.calls)
    (hfailed : (cl.wire e.connection).failed = true) (hn : cl.calls[n]? = some call)
    (ht : call.phase.ticket? = some e.ticket) :
    ∃ a, call.phase = .registered a e.connection e.ticket := by
  obtain ⟨m, owner, a, hm, hphase⟩ := h.late e he hfailed
  have hsame := h.apart m n owner call e.ticket hm hn (by rw [hphase]; rfl) ht
  obtain rfl := Option.some.inj (hm.symm.trans (hsame ▸ hn))
  exact ⟨a, hphase⟩

/-- **No call is stranded on a closed connection.** When the closing of a connection is complete,
every entry on it belongs to a call that has registered and not yet looked at the connection.
As soon as this call goes on it takes out its own entry and returns that the connection is
closed, and until then it stays as it is. The entry of any other call on the connection is gone,
and its ticket does not wait any more. -/
theorem none_stranded (config : TransportConfig) (moves : List Move) (c : ConnectionId) :
    let x := (new config).play moves
    let closed : CallError := .transport (.connectionClosed (x.pool.addressOf c))
    (x.wire c).failed = true →
      (∀ e ∈ x.pending.calls, e.connection = c → ∃ (n : CallId) (call : ClientCall) (a : AttemptId),
        x.calls[n]? = some call ∧ call.phase = .registered a c e.ticket ∧
        (x.step (.proceed n)).answer? n = some (.error closed) ∧
        (∀ d, d ∈ (x.step (.proceed n)).pending.calls ↔ d ∈ x.pending.calls ∧ d ≠ e) ∧
        ∀ later, (x.play later).Bound n a c e.ticket closed) ∧
      ∀ (n : CallId) (call : ClientCall) (t : TicketId), x.calls[n]? = some call →
        call.phase.connection? = some c →
        call.phase.ticket? = some t → (∀ a, call.phase ≠ .registered a c t) →
        (x.pending.ticket t).waits = false ∧ ∀ e ∈ x.pending.calls, e.ticket ≠ t := by
  intro x closed hfailed
  have h : x.Attended fun _ => True := attended_play (attended_new _ config) moves
  have hc := h.closed c hfailed
  refine ⟨fun e he hec => ?_, fun n call t hn hconnection hticket hphase => ?_⟩
  · subst hec
    obtain ⟨n, call, a, hn, hphase⟩ := h.late e he hfailed
    have hid : call.id = e.requestId :=
      h.tickets.owner e he call (List.mem_of_getElem? hn) (by rw [hphase]; rfl)
    refine ⟨n, call, a, hn, hphase, ?_, fun d => ?_, fun later => ?_⟩
    · rw [proceed_of_closed hn hphase hc]
      exact answer?_withdraw hn
    · rw [proceed_of_closed hn hphase hc]
      refine (Pending.settle_settles h.nodup call.id .closed).mem.trans ?_
      refine and_congr_right fun hd => ?_
      rw [hid, Pending.among]
      constructor
      · rintro hlot rfl
        simp at hlot
      · intro hne
        refine if_neg fun hmem => hne ?_
        exact Pending.entry_unique h.nodup hd he (List.mem_singleton.1 hmem)
    · exact Bound.play (.inl ⟨call, hn, hphase⟩) h hc later
  · have hgone : ∀ e ∈ x.pending.calls, e.ticket ≠ t := by
      rintro e he rfl
      have hec := h.connection e he call (List.mem_of_getElem? hn) hticket
      obtain rfl := Option.some.inj (hconnection.symm.trans hec)
      obtain ⟨a, hregistered⟩ := h.registered he hfailed hn hticket
      exact hphase a hregistered
    refine ⟨Bool.eq_false_iff.2 fun hwaits => ?_, hgone⟩
    obtain ⟨e, he, het⟩ :=
      h.entry call (List.mem_of_getElem? hn) t hticket (Ticket.waits_iff.1 hwaits)
    exact hgone e he het

/-! ### A case -/

/-- A call goes out on a connection. -/
def oneOut : List Action :=
  [.call "a:1" asking, .proceed 0, .pool (.listen 0), .pool (.noneIdle 0), .pool (.claim 0),
    .pool (.connected 0)] ++ List.replicate 4 (.proceed 0)

/-- Somebody leases the connection for a message of their own. The connection is closed and all calls
on it fail, and then the message is registered. -/
def lateComer : List Move :=
  oneOut.map .act ++
    [.post "a:1" (asking.message single.layout single.serializer 7), .act (.proceed 1),
      .act (.pool (.listen 1)), .act (.pool (.take 1 0)), .usePool (.mark 0), .act (.pool (.free 0)),
      .act (.fail 0), .act (.proceed 1)]

theorem none_stranded_late_comer :
    let x := (new single).play lateComer
    x.pending.calls = [⟨7, 0, 1⟩] ∧ (x.pending.ticket 0).waits = false ∧
      ∃ n, (x.step (.proceed n)).answer? n = some (.error (.transport (.connectionClosed "a:1"))) ∧
        (x.step (.proceed n)).pending.calls = [] := by
  intro x
  have htable : x.pending.calls = [⟨7, 0, 1⟩] := by decide +kernel
  have haddress : x.pool.addressOf 0 = "a:1" := by decide +kernel
  obtain ⟨hentries, hothers⟩ := none_stranded single lateComer 0 (by decide +kernel)
  obtain ⟨n, call, a, -, -, hanswer, htaken, -⟩ :=
    hentries ⟨7, 0, 1⟩ (htable ▸ List.mem_cons_self) rfl
  refine ⟨htable, ?_, n, haddress ▸ hanswer, ?_⟩
  · have hwaiting : (x.calls[0]?).map (fun call => call.phase.connection?) = some (some 0) ∧
        (x.calls[0]?).map (fun call => call.phase.ticket?) = some (some 0) ∧
        (x.calls[0]?).map (fun call => call.phase.attempt?) = some none := by decide +kernel
    cases hcall : x.calls[0]? with
    | none =>
      rw [hcall] at hwaiting
      cases hwaiting.1
    | some call =>
      rw [hcall] at hwaiting
      refine (hothers 0 call 0 hcall (Option.some.inj hwaiting.1) (Option.some.inj hwaiting.2.1)
        fun a ha => ?_).1
      have hnone : call.phase.attempt? = none := Option.some.inj hwaiting.2.2
      rw [ha] at hnone
      cases hnone
  · refine List.eq_nil_iff_forall_not_mem.2 fun d hd => ?_
    obtain ⟨hd, hne⟩ := (htaken d).1 hd
    change d ∈ x.pending.calls at hd
    rw [htable] at hd
    exact hne (List.mem_singleton.1 hd)

end RemoteCall.Transport.Client
