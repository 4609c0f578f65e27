import RemoteCall.Proofs.Frame.Resynchronisation
import RemoteCall.Proofs.Transport.Bookkeeping
import RemoteCall.Proofs.Transport.Streams

/-! The settlement of calls.

For any calls and any order of steps, as long as fewer than 2^64 ids have been given out
(`calls_settle`): a call enters the table of pending calls at most once and leaves it at most
once, the table holds exactly the calls in between, and what a call returns is what the first
event made of it that concerned it (`Settled`). -/
namespace RemoteCall.Transport

/-- What an answer of a pending call comes from. -/
inductive Answering (n : CallId) (c : ConnectionId) (a : Answer) : Event → Prop
  /-- A frame with its id, or a faulty one, that came in on any connection. -/
  | arrived {d : ConnectionId} {item : FrameItem}
    (h : Client.answerOf item = some (requestIdOf n, a)) : Answering n c a (.arrived d item)
  /-- The end of its connection. -/
  | failed {e : CallError} (h : a = .error e) : Answering n c a (.failed c e)
  | shut (h : a = .error (.transport .shutDown)) : Answering n c a .shut

theorem Event.answering {ev : Event} {n : CallId} {c : ConnectionId} {a : Answer}
    (hlot : ev.lot (requestIdOf n) c = some (.answered a)) : Answering n c a ev := by
  cases ev with
  | arrived d item =>
    rw [Event.lot] at hlot
    split at hlot
    · next other answer hitem =>
      split at hlot
      · next hid =>
        cases hlot
        exact .arrived (hid ▸ hitem)
      · cases hlot
    · cases hlot
  | failed d e =>
    rw [Event.lot] at hlot
    split at hlot
    · next hcd =>
      cases hlot
      exact hcd ▸ .failed rfl
    · cases hlot
  | shut =>
    cases hlot
    exact .shut rfl
  | timedOut m | unsent m =>
    rw [Event.lot] at hlot
    split at hlot <;> cases hlot
  | entered m d | received d chunk => cases hlot

/-- How often a call may still leave the table. -/
def Course.exitsLeft : Course → Nat
  | outside | pending _ => 1
  | settled _ _ => 0

theorem Course.exitsLeft_le_one (course : Course) : course.exitsLeft ≤ 1 := by
  cases course with
  | outside | pending c => exact Nat.le_refl 1
  | settled c lot => exact Nat.zero_le 1

/-- A call that was pending and is not any more is settled. -/
theorem course_of_left {h : List Event} {ev? : Option Event} {n : CallId} {c : ConnectionId}
    (hbefore : course n h = .pending c) (hafter : ∀ d, course n (h ++ ev?.toList) ≠ .pending d) :
    ∃ lot, course n (h ++ ev?.toList) = .settled c lot := by
  cases ev? with
  | none =>
    rw [Option.toList_none, List.append_nil] at hafter
    exact absurd hbefore (hafter c)
  | some ev =>
    rw [Option.toList_some, course_concat, hbefore] at hafter ⊢
    cases hlot : ev.lot (requestIdOf n) c with
    | none => exact absurd (Course.next_miss hlot) (hafter c)
    | some lot => exact ⟨lot, Course.next_hit hlot⟩

theorem exitsLeft_concat (n : CallId) (h : List Event) (ev? : Option Event) :
    (course n (h ++ ev?.toList)).exitsLeft ≤ (course n h).exitsLeft := by
  cases ev? with
  | none => exact Nat.le_of_eq (by rw [Option.toList_none, List.append_nil])
  | some ev =>
    rw [Option.toList_some, course_concat]
    cases course n h with
    | settled c lot => exact Nat.le_refl 0
    | outside | pending c => exact Course.exitsLeft_le_one _

namespace Client

/-- What holds of a client with a history. -/
structure Settled (cl : Client) (h : List Event) : Prop where
  number : ∀ (n : CallId) (call : ClientCall), cl.calls[n]? = some call → call.id = requestIdOf n
  /-- A call enters the table at most once. -/
  once : ∀ n, h.countP (Event.isEntry n) ≤ 1
  /-- No id is in the table twice. -/
  nodup : cl.pending.ids.Nodup
  /-- The table holds exactly the calls that have entered it and are not settled. -/
  table : ∀ id c, (∃ t, ⟨id, c, t⟩ ∈ cl.pending.calls) ↔
    ∃ n, n < cl.calls.length ∧ id = requestIdOf n ∧ course n h = .pending c
  /-- The ticket that a call holds shows how its course stands. -/
  ticket : ∀ (n : CallId) (call : ClientCall) (t : TicketId), cl.calls[n]? = some call →
    call.phase.ticket? = some t →
      (∃ c, course n h = .pending c ∧ cl.pending.ticket t = .waiting) ∨
        ∃ c a, course n h = .settled c (.answered a) ∧ cl.pending.ticket t = .answered a
  /-- A call has returned what settled it, and nothing is left of it. -/
  returned : ∀ (n : CallId) (call : ClientCall) (a : Answer), cl.calls[n]? = some call →
    call.phase = .ended a → Ending cl.config h n call.address a ∧ call.id ∉ cl.pending.ids
  /-- The first event after its entry that concerns a call answers it. -/
  first : ∀ n c a, course n h = .settled c (.answered a) → ∃ early between ev late,
    h = early ++ .entered n c :: (between ++ ev :: late) ∧ Answering n c a ev ∧
      ∀ x ∈ between, x.lot (requestIdOf n) c = none
  /-- What is handled on any connection and names a call that waits is its answer: a message, or
  what is wrong with the frame. -/
  named : ∀ (n : CallId) (call : ClientCall) (t : TicketId), cl.calls[n]? = some call →
    call.phase.ticket? = some t → cl.pending.ticket t = .waiting →
      ∀ c item rest a, (cl.wire c).inbox = item :: rest → answerOf item = some (requestIdOf n, a) →
        (cl.step (.handle c)).pending.ticket t = .answered a
  /-- However the bytes were cut: the items handled so far, and those that wait to be, are the
  items in the bytes that came in. -/
  stream : ∀ c, h.filterMap (Event.itemOn? c) ++ (cl.wire c).inbox =
    (FrameStream.drain cl.config.maxBody.toNat (h.flatMap (Event.bytesOn c))).items
  /-- A breach is the last item of its connection. For too long a body it names the call. -/
  breached : ∀ c front items breach fault rest,
    FrameStream.drain cl.config.maxBody.toNat front = ⟨items, [], false⟩ →
    FrameStream.Breach cl.config.maxBody.toNat breach fault →
    h.flatMap (Event.bytesOn c) = front ++ (breach ++ rest) →
      h.filterMap (Event.itemOn? c) ++ (cl.wire c).inbox = items ++ [.error fault] ∧
        (cl.wire c).decoder.poisoned = true
  /-- The calls on a connection fail once, at its closing. -/
  failures : ∀ c, h.countP (Event.isFailure c) ≤ 1
  /-- Behind the last item of an open connection that cannot be decoded any more, its calls are
  failed. -/
  undecodable : ∀ c, (cl.wire c).decoder.poisoned = true → (cl.wire c).inbox = [] →
    (cl.wire c).reading = true → cl.isOpened c = true →
      (cl.run [.handle c, .pool (.free c)]).pending = cl.pending ∧
        (cl.run [.handle c, .pool (.free c)]).event? (.fail c) =
          some (.failed c (.transport (.io (cl.pool.addressOf c) undecodable)))
  /-- A call that runs out of time takes out its own entry, if any. -/
  timeOut : ∀ n, (cl.step (.timeOut n)).pending.calls = cl.pending.calls ∨
    (cl.step (.timeOut n)).pending.calls =
      cl.pending.calls.filter fun e => e.requestId ≠ requestIdOf n
  failConnection : ∀ c e,
    (cl.pending.failConnection c e).1 = cl.pending.calls.countP (·.connection = c) ∧
      Pending.Settles cl.pending (cl.pending.failConnection c e).2 fun _ d =>
        if d = c then some (.answered (.error e)) else none
  failAll : ∀ e, (cl.pending.failAll e).1 = cl.pending.size ∧
    Pending.Settles cl.pending (cl.pending.failAll e).2 fun _ _ => some (.answered (.error e))

variable {cl : Client} {h : List Event} {n : CallId} {c : ConnectionId}

/-! ### Connections leave the calls alone -/

theorem calls_mark (c : ConnectionId) (w : Wire) (reason : CallError) :
    (cl.mark c w reason).calls = cl.calls := by
  unfold mark
  split <;> rfl

theorem calls_handle (c : ConnectionId) : (cl.handle c).calls = cl.calls := by
  unfold handle
  dsimp only
  split
  · unfold takeItem
    split <;> rfl
  · split
    · exact calls_mark c _ _
    · rfl

theorem calls_stopReading (c : ConnectionId) (reason : CallError) :
    (cl.stopReading c reason).calls = cl.calls := by
  unfold stopReading
  dsimp only
  split
  · exact calls_mark c _ _
  · rfl

/-! ### What the accounts say -/

theorem Accounted.table (hacc : cl.Accounted h) (id : UInt64) (c : ConnectionId) :
    (∃ t, ⟨id, c, t⟩ ∈ cl.pending.calls) ↔
      ∃ n, n < cl.calls.length ∧ id = requestIdOf n ∧ course n h = .pending c := by
  refine ⟨fun ⟨t, ht⟩ => hacc.entry _ ht, fun ⟨n, hn, hid, hcourse⟩ => ?_⟩
  have hcall := List.getElem?_eq_getElem hn
  obtain ⟨⟨id', c', t⟩, he, rfl, rfl, -⟩ := (hacc.fine n _ hcall).inTable c hcourse
  exact ⟨t, hid ▸ he⟩

theorem Accounted.ticket (hacc : cl.Accounted h) {call : ClientCall} {t : TicketId}
    (hn : cl.calls[n]? = some call) (ht : call.phase.ticket? = some t) :
    (∃ c, course n h = .pending c ∧ cl.pending.ticket t = .waiting) ∨
      ∃ c a, course n h = .settled c (.answered a) ∧ cl.pending.ticket t = .answered a := by
  obtain ⟨c, -, ⟨hcourse, hlot⟩ | ⟨a, hcourse, hlot⟩⟩ := (hacc.fine n call hn).held t ht
  · exact .inl ⟨c, hcourse, hlot⟩
  · exact .inr ⟨c, a, hcourse, hlot⟩

/-- Nothing is left of a call that has returned. -/
theorem Accounted.returned (hacc : cl.Accounted h) {call : ClientCall} {a : Answer}
    (hn : cl.calls[n]? = some call) (ha : call.phase = .ended a) :
    Ending cl.config h n call.address a ∧ call.id ∉ cl.pending.ids := by
  have hend := (hacc.fine n call hn).ended a ha
  refine ⟨hend, ?_⟩
  rw [hacc.number n call hn,
    hacc.mem_ids (hacc.numbered (List.getElem?_eq_some_iff.1 hn).1)]
  rintro ⟨c, hc⟩
  exact hend.not_pending hc

/-- What is handled and names a call that waits is its answer. -/
theorem Accounted.named (hacc : cl.Accounted h) {call : ClientCall} {t : TicketId}
    (hn : cl.calls[n]? = some call) (ht : call.phase.ticket? = some t)
    (hwaits : cl.pending.ticket t = .waiting) {item : FrameItem} {rest : List FrameItem} {a : Answer}
    (hinbox : (cl.wire c).inbox = item :: rest)
    (hitem : answerOf item = some (requestIdOf n, a)) :
    (cl.step (.handle c)).pending.ticket t = .answered a := by
  obtain ⟨d, hcourse, -⟩ | ⟨d, b, -, hanswer⟩ := hacc.ticket hn ht
  · have hlot : (Event.arrived c item).lot (requestIdOf n) d = some (.answered a) := by
      rw [Event.lot, hitem]
      exact if_pos rfl
    have hevent : cl.event? (.handle c) = some (.arrived c item) := by
      rw [event?, hinbox]
      rfl
    have hnext := hacc.handle c
    rw [hevent, Option.toList_some] at hnext
    have hsettled : course n (h ++ [.arrived c item]) = .settled d (.answered a) := by
      rw [course_concat, hcourse, Course.next_hit hlot]
    obtain ⟨e, hpending, -⟩ | ⟨e, b, hother, hanswer⟩ :=
      hnext.ticket ((calls_handle c).symm ▸ hn) ht
    · cases hsettled.symm.trans hpending
    · cases hsettled.symm.trans hother
      exact hanswer
  · cases hwaits.symm.trans hanswer

theorem course_first {a : Answer} (hc : course n h = .settled c (.answered a)) :
    ∃ early between ev late, h = early ++ .entered n c :: (between ++ ev :: late) ∧
      Answering n c a ev ∧ ∀ x ∈ between, x.lot (requestIdOf n) c = none := by
  obtain ⟨before, ev, late, rfl, hbefore, hlot⟩ := course_settled hc
  obtain ⟨early, between, rfl, -, hbetween⟩ := course_pending hbefore
  exact ⟨early, between, ev, late, by simp, ev.answering hlot, hbetween⟩

theorem Accounted.timeOut (hacc : cl.Accounted h) (n : CallId) :
    (cl.step (.timeOut n)).pending.calls = cl.pending.calls ∨
      (cl.step (.timeOut n)).pending.calls =
        cl.pending.calls.filter fun e => e.requestId ≠ requestIdOf n := by
  rw [Client.step, Client.onCall]
  split
  · next call hn =>
    unfold Client.expire
    split
    · dsimp only
      split
      · right
        show (cl.pending.cancel call.id).2.calls = _
        rw [hacc.number n call hn]
        refine (Pending.settle_settles hacc.nodup _ _).calls.trans (List.filter_congr fun e _ => ?_)
        by_cases hid : e.requestId = requestIdOf n <;> simp [Pending.among, hid]
      · exact .inl rfl
    · exact .inl rfl
  · exact .inl rfl

/-! ### Closing a connection that cannot be decoded -/

theorem state?_mark_free {p : Pool} (hopened : p.state? c = some .opened) :
    ((p.step (.mark c)).step (.free c)).state? c = some .closed := by
  obtain ⟨s, hs, hstate⟩ := Option.map_eq_some_iff.1 hopened
  have hmark : p.step (.mark c) = p.setState c .closing := by
    show p.onSocket c _ = _
    rw [Pool.onSocket, hs]
    exact if_pos hstate
  have hmarked : (p.setState c .closing).sockets[c]? = some { s with state := .closing } := by
    simp [Pool.setState, Pool.modifySocket, hs]
  have hfree : (p.setState c .closing).step (.free c) =
      ((p.setState c .closing).setState c .closed).giveRoom s.pool := by
    show (p.setState c .closing).onSocket c _ = _
    rw [Pool.onSocket, hmarked]
    exact if_pos rfl
  rw [hmark, hfree, Pool.state?, Pool.sockets_giveRoom]
  exact Pool.state?_setState_self hmarked .closed

/-- A reader behind its last item closes the connection, and the calls on it fail for this. -/
theorem undecodable_fails (hpoisoned : (cl.wire c).decoder.poisoned = true)
    (hinbox : (cl.wire c).inbox = []) (hreading : (cl.wire c).reading = true)
    (hopened : cl.isOpened c = true) (hfailed : (cl.wire c).failed = false) :
    (cl.run [.handle c, .pool (.free c)]).pending = cl.pending ∧
      (cl.run [.handle c, .pool (.free c)]).event? (.fail c) =
        some (.failed c (.transport (.io (cl.pool.addressOf c) undecodable))) := by
  let reason : CallError := .transport (.io (cl.pool.addressOf c) undecodable)
  let wire : Wire := { cl.wire c with reading := false, reason := some reason }
  have hhandle : cl.step (.handle c) = (cl.setWire c wire).poolStep (.mark c) := by
    show cl.handle c = _
    unfold Client.handle
    dsimp only
    rw [hinbox]
    dsimp only
    rw [hpoisoned, hreading, Bool.and_self, if_pos rfl, mark, if_pos hopened]
    simp only [wire, hinbox, reason]
  have hstate := state?_mark_free (of_decide_eq_true hopened)
  have hwire : (cl.setWire c wire).wire c = wire := wire_setWire_self cl c wire
  show ((cl.step (.handle c)).step (.pool (.free c))).pending = _ ∧
    ((cl.step (.handle c)).step (.pool (.free c))).event? (.fail c) = _
  rw [hhandle]
  refine ⟨rfl, ?_⟩
  show (if ((cl.pool.step (.mark c)).step (.free c)).state? c = some .closed
      && !((cl.setWire c wire).wire c).failed then
    some (Event.failed c (((cl.setWire c wire).wire c).reason.getD _)) else none) = _
  rw [hstate, hwire]
  simp [wire, reason, hfailed]

/-! ### Runs -/

/-- What a client keeps: its ledger, its accounts and its connections. -/
structure Kept (cl : Client) (h : List Event) : Prop where
  ledger : Ledger (fun _ _ => True) cl
  accounted : cl.Accounted h
  streams : Streams cl h

theorem Kept.settled (hk : Kept cl h) : Settled cl h where
  number := hk.accounted.number
  once := hk.accounted.once
  nodup := hk.accounted.nodup
  table := hk.accounted.table
  ticket _ _ _ hn ht := hk.accounted.ticket hn ht
  returned _ _ _ hn ha := hk.accounted.returned hn ha
  first _ _ _ hc := course_first hc
  named _ _ _ hn ht hwaits _ _ _ _ hinbox hitem := hk.accounted.named hn ht hwaits hinbox hitem
  stream c := (hk.streams.streamed c).items
  breached c _ _ _ _ rest hfront hbreach hbytes :=
    (hk.streams.streamed c).lost hfront (FrameStream.scan_breach hbreach rest) hbytes
  failures c := by
    rw [(hk.streams.streamed c).failures]
    exact Bool.toNat_le _
  undecodable c hpoisoned hinbox hreading hopened := by
    refine undecodable_fails hpoisoned hinbox hreading hopened ?_
    rw [← Bool.not_eq_true]
    intro hfailed
    exact Pool.not_opened_of_reached (hk.streams.closed c hfailed) (of_decide_eq_true hopened)
  timeOut := hk.accounted.timeOut
  failConnection c e := Pending.failConnection_settles hk.accounted.nodup c e
  failAll e := Pending.failAll_settles hk.accounted.nodup e

theorem Ledger.step_true (hl : Ledger (fun _ _ => True) cl) (action : Action) :
    Ledger (fun _ _ => True) (cl.step action) := by
  by_cases hreceive : ∃ c chunk, action = .receive c chunk
  · obtain ⟨c, chunk, rfl⟩ := hreceive
    show Ledger _ (cl.receive c chunk)
    unfold Client.receive
    dsimp only
    split
    · exact hl.feed fun _ _ _ _ _ _ => trivial
    · exact hl
  · exact ((Moves.start hl).step fun c chunk heq => hreceive ⟨c, chunk, heq⟩).toLedger

/-- Calls are never forgotten. -/
theorem length_calls_step (hl : Ledger (fun _ _ => True) cl) (action : Action) :
    cl.calls.length ≤ (cl.step action).calls.length := by
  by_cases hreceive : ∃ c chunk, action = .receive c chunk
  · obtain ⟨c, chunk, rfl⟩ := hreceive
    show _ ≤ (cl.receive c chunk).calls.length
    unfold Client.receive
    dsimp only
    split <;> exact Nat.le_refl _
  · have hmoves := (Moves.start hl).step fun c chunk heq => hreceive ⟨c, chunk, heq⟩
    simpa [letters] using hmoves.letters.length_le

theorem length_calls_run (hl : Ledger (fun _ _ => True) cl) (actions : List Action) :
    cl.calls.length ≤ (cl.run actions).calls.length := by
  induction actions generalizing cl with
  | nil => exact Nat.le_refl _
  | cons a rest ih => exact Nat.le_trans (length_calls_step hl a) (ih (hl.step_true a))

theorem Kept.step (hk : Kept cl h) (action : Action)
    (hfew : (cl.step action).calls.length < 2 ^ 64) :
    Kept (cl.step action) (h ++ (cl.event? action).toList) where
  ledger := hk.ledger.step_true action
  accounted := hk.accounted.step hk.ledger action hfew
  streams := hk.streams.step hk.ledger action

theorem Kept.run (hk : Kept cl h) (actions : List Action)
    (hfew : (cl.run actions).calls.length < 2 ^ 64) :
    Kept (cl.run actions) (h ++ cl.history actions) := by
  induction actions generalizing cl h with
  | nil =>
    rw [history, List.append_nil]
    exact hk
  | cons a rest ih =>
    have hlength := length_calls_run (hk.ledger.step_true a) rest
    have hnext := hk.step a (Nat.lt_of_le_of_lt hlength hfew)
    rw [history, ← List.append_assoc]
    exact ih hnext hfew

theorem accounted_new (config : TransportConfig) : (new config).Accounted [] where
  tickets := .empty
  few := Nat.two_pow_pos 64
  number n call hn := by cases hn
  nodup := List.nodup_nil
  entry e he := by cases he
  apart n m call other t hn := by cases hn
  unborn n hn := rfl
  fine n call hn := by cases hn
  once n := Nat.zero_le 1

theorem kept_new (config : TransportConfig) : Kept (new config) [] :=
  ⟨ledger_new config, accounted_new config, .new config⟩

theorem Kept.exits_le (hk : Kept cl h) (hn : n + 1 < 2 ^ 64) (actions : List Action)
    (hfew : (cl.run actions).calls.length < 2 ^ 64) :
    cl.exits (requestIdOf n) actions ≤ (course n h).exitsLeft := by
  induction actions generalizing cl h with
  | nil => exact Nat.zero_le _
  | cons a rest ih =>
    have hlength := length_calls_run (hk.ledger.step_true a) rest
    have hnext := hk.step a (Nat.lt_of_le_of_lt hlength hfew)
    have hrest := ih hnext hfew
    rw [exits]
    split
    · next hleaves =>
      obtain ⟨hin, hout⟩ := Bool.and_eq_true_iff.1 hleaves
      have hbefore := (hk.accounted.mem_ids hn).1 ((cl.pending.isSome_find? _).1 hin)
      obtain ⟨c, hbefore⟩ := hbefore
      have hafter (d : ConnectionId) :
          course n (h ++ (cl.event? a).toList) ≠ .pending d := fun hd => by
        have hmem := (hnext.accounted.mem_ids hn).2 ⟨d, hd⟩
        have hsome := ((cl.step a).pending.isSome_find? _).2 hmem
        rw [Option.isNone_iff_eq_none] at hout
        rw [hout] at hsome
        cases hsome
      obtain ⟨lot, hsettled⟩ := course_of_left hbefore hafter
      rw [hsettled] at hrest
      rw [hbefore]
      exact Nat.add_le_add_left hrest 1
    · rw [Nat.zero_add]
      exact Nat.le_trans hrest (exitsLeft_concat n h _)

/-! ### Calls that have returned -/

section Over
variable {call : ClientCall} {a : Answer}

/-- A step of a call leaves a call that has returned alone. -/
theorem over_onCall (hn : cl.calls[n]? = some call) {m : CallId}
    {f : Client → CallId → ClientCall → Client} (halone : ∀ other, Alone m cl (f cl m other))
    (hself : m = n → f cl m call = cl) : (cl.onCall m f).calls[n]? = some call := by
  unfold onCall
  split
  · next other hm =>
    by_cases hmn : m = n
    · obtain rfl : other = call := Option.some.inj (hm.symm.trans (hmn ▸ hn))
      rw [hself hmn]
      exact hn
    · rw [(halone other).calls n (Ne.symm hmn)]
      exact hn
  · exact hn

/-- A call that does nothing by itself is left as it is by every step, unless it proceeds. -/
theorem still_step (hn : cl.calls[n]? = some call) {action : Action}
    (hproceed : action = .proceed n → cl.proceed n call = cl)
    (hrefuse : cl.refuseFrame n call = cl) (hexpire : cl.expire n call = cl)
    (hgiveUp : cl.giveUp n call = cl) : (cl.step action).calls[n]? = some call := by
  cases action with
  | call address wish =>
    exact (List.getElem?_append_left (List.getElem?_eq_some_iff.1 hn).1).trans hn
  | proceed m =>
    exact over_onCall hn (fun _ => alone_proceed) fun hm => hm ▸ hproceed (by rw [hm])
  | writerGone m => exact over_onCall hn (fun _ => alone_refuseFrame) fun hm => hm ▸ hrefuse
  | timeOut m => exact over_onCall hn (fun _ => alone_expire) fun hm => hm ▸ hexpire
  | abandon m => exact over_onCall hn (fun _ => alone_giveUp) fun hm => hm ▸ hgiveUp
  | pool b =>
    rw [Client.step]
    split <;> exact hn
  | receive c chunk =>
    rw [Client.step]
    unfold Client.receive
    dsimp only
    split <;> exact hn
  | handle c =>
    rw [Client.step, calls_handle]
    exact hn
  | endOfStream c | readFails c reason =>
    rw [Client.step, calls_stopReading]
    exact hn
  | write c =>
    rw [Client.step]
    unfold Client.write
    dsimp only
    split <;> exact hn
  | writeFails c reason =>
    rw [Client.step]
    unfold Client.failWriting
    split
    · rw [calls_mark]
      exact hn
    · exact hn
  | fail c =>
    rw [Client.step]
    unfold Client.fail
    dsimp only
    split <;> exact hn
  | shutDown | shutPool | failAll =>
    rw [Client.step]
    split <;> exact hn

/-- A call that has returned has returned. -/
theorem over_step (hn : cl.calls[n]? = some call) (ha : call.phase = .ended a) (action : Action) :
    (cl.step action).calls[n]? = some call :=
  still_step hn (fun _ => by rw [proceed, ha]) (by rw [refuseFrame, ha]) (by rw [expire, ha])
    (by rw [giveUp, ha])

theorem over_run (hn : cl.calls[n]? = some call) (ha : call.phase = .ended a)
    (actions : List Action) : (cl.run actions).calls[n]? = some call := by
  induction actions generalizing cl with
  | nil => exact hn
  | cons action rest ih => exact ih (over_step hn ha action)

end Over

theorem answer?_stays {a : Answer} (ha : cl.answer? n = some a) (actions : List Action) :
    (cl.run actions).answer? n = some a := by
  unfold answer? at ha
  split at ha
  · next address message answer hn =>
    cases ha
    rw [answer?, over_run hn rfl]
  · cases ha

/-- **Every call is settled at most once, by the first event that concerns it.** -/
theorem calls_settle (config : TransportConfig) (actions : List Action)
    (hfew : ((new config).run actions).calls.length < 2 ^ 64) :
    Settled ((new config).run actions) ((new config).history actions) ∧
      (∀ n, n < ((new config).run actions).calls.length →
        (new config).exits (requestIdOf n) actions ≤ 1) ∧
      ∀ n a, ((new config).run actions).answer? n = some a → ∀ more,
        ((new config).run (actions ++ more)).answer? n = some a := by
  have hk := (kept_new config).run actions hfew
  refine ⟨hk.settled, fun n hn => ?_, fun n a ha more => ?_⟩
  · exact (kept_new config).exits_le (Nat.lt_of_le_of_lt hn hfew) actions hfew
  · rw [run, List.foldl_append]
    exact answer?_stays ha more

/-! ### A case -/

/-- A client with room for one connection to each address. -/
def single : TransportConfig := { serializer := .native, pool := { minSize := 0, maxSize := 1 } }

def asking : Wish := .request { serviceName := "Sample", methodName := "ask" }

/-- Two calls go out on one connection. -/
def twoOut : List Action :=
  [.call "a:1" asking, .proceed 0, .pool (.listen 0), .pool (.noneIdle 0), .pool (.claim 0),
    .pool (.connected 0)] ++ List.replicate 4 (.proceed 0) ++
  [.call "a:1" asking, .proceed 1, .pool (.listen 1), .pool (.take 1 0)] ++
  List.replicate 4 (.proceed 1)

/-- A header that claims too long a body comes in, in two pieces, under the id of the second call.
That call is named by the error, and the other one fails with the connection. -/
def tooLarge : List Action :=
  [.receive 0 [1, 2, 16, 20, 0, 0, 0, 0, 0], .receive 0 [0, 0, 2, 255, 255, 255, 255, 9],
    .handle 0, .handle 0, .pool (.free 0), .fail 0, .proceed 0, .proceed 1]

theorem calls_settle_too_large :
    ((new single).run (twoOut ++ tooLarge)).calls.length < 2 ^ 64 ∧
      Settled ((new single).run (twoOut ++ tooLarge)) ((new single).history (twoOut ++ tooLarge)) ∧
      (new single).exits (requestIdOf 1) (twoOut ++ tooLarge) ≤ 1 ∧
      ((new single).run (twoOut ++ tooLarge)).answer? 0 =
        some (.error (.transport (.io "a:1" undecodable))) ∧
      ∀ more, ((new single).run (twoOut ++ tooLarge ++ more)).answer? 1 =
        some (.error (.frame (.bodyTooLarge 4294967295 16777216))) := by
  have hfew : ((new single).run (twoOut ++ tooLarge)).calls.length < 2 ^ 64 := by decide +kernel
  obtain ⟨hsettled, hexits, hstays⟩ := calls_settle single (twoOut ++ tooLarge) hfew
  refine ⟨hfew, hsettled, hexits 1 (by decide +kernel), ?_, hstays 1 _ ?_⟩
  · decide +kernel
  · decide +kernel

end Client
end RemoteCall.Transport
