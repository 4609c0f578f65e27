import RemoteCall.Proofs.Frame.Chunking
import RemoteCall.Proofs.Transport.Client
import RemoteCall.Transport.History

/-! What comes in on a connection.

However the bytes are cut, the frames that have been handled and those that wait to be are the
frames in the bytes so far (`Streamed`), and the calls on a connection fail at most once, when
it is closed. -/
namespace RemoteCall.Transport

/-- Whether an event brings nothing in on a connection and does not end it. -/
structure Event.Silent (c : ConnectionId) (ev : Event) : Prop where
  bytes : ev.bytesOn c = []
  item : ev.itemOn? c = none
  failure : ev.isFailure c = false

/-- Two states of a connection with the same bytes behind them. -/
structure Wire.Alike (v w : Wire) : Prop where
  decoder : v.decoder = w.decoder
  inbox : v.inbox = w.inbox
  failed : v.failed = w.failed

/-- What a connection has brought in is in its history. -/
structure Streamed (maxBody : Nat) (h : List Event) (c : ConnectionId) (w : Wire) : Prop where
  decoder : w.decoder = .after maxBody (h.flatMap (Event.bytesOn c))
  items : h.filterMap (Event.itemOn? c) ++ w.inbox =
    (FrameStream.drain maxBody (h.flatMap (Event.bytesOn c))).items
  failures : h.countP (Event.isFailure c) = w.failed.toNat

namespace Streamed

variable {maxBody : Nat} {h : List Event} {c : ConnectionId} {w v : Wire} {ev : Event}

theorem congr (hs : Streamed maxBody h c w) (hv : v.Alike w) : Streamed maxBody h c v where
  decoder := hv.decoder.trans hs.decoder
  items := by
    rw [hv.inbox]
    exact hs.items
  failures := by
    rw [hv.failed]
    exact hs.failures

theorem silent (hs : Streamed maxBody h c w) {events : List Event}
    (hsilent : ∀ ev ∈ events, ev.Silent c) : Streamed maxBody (h ++ events) c w := by
  have hbytes : events.flatMap (Event.bytesOn c) = [] :=
    List.flatMap_eq_nil_iff.2 fun ev hev => (hsilent ev hev).bytes
  have hitems : events.filterMap (Event.itemOn? c) = [] :=
    List.filterMap_eq_nil_iff.2 fun ev hev => (hsilent ev hev).item
  have hfailures : events.countP (Event.isFailure c) = 0 :=
    List.countP_eq_zero.2 fun ev hev => by simp [(hsilent ev hev).failure]
  refine ⟨?_, ?_, ?_⟩
  · rw [List.flatMap_append, hbytes, List.append_nil]
    exact hs.decoder
  · rw [List.flatMap_append, hbytes, List.append_nil, List.filterMap_append, hitems,
      List.append_nil]
    exact hs.items
  · rw [List.countP_append, hfailures]
    exact hs.failures

/-- Bytes are taken apart when all before them are handled. -/
theorem receive (hs : Streamed maxBody h c w) (hinbox : w.inbox = [])
    (hsound : w.decoder.poisoned = false) (chunk : Bytes) :
    Streamed maxBody (h ++ [.received c chunk]) c
      { w with inbox := (w.decoder.feed chunk).1, decoder := (w.decoder.feed chunk).2 } := by
  have hbytes : (h ++ [Event.received c chunk]).flatMap (Event.bytesOn c) =
      h.flatMap (Event.bytesOn c) ++ chunk := by
    simp [List.flatMap_append, Event.bytesOn]
  have hitems := hs.items
  have hdecoder := hs.decoder
  rw [hinbox, List.append_nil] at hitems
  refine ⟨?_, ?_, ?_⟩
  · rw [hbytes, ← FrameStream.feed_after, ← hdecoder]
  · rw [hbytes, FrameStream.items_append, ← hdecoder, hsound, ← hitems, List.filterMap_append]
    simp [Event.itemOn?]
  · rw [List.countP_append, hs.failures]
    rfl

theorem handle (hs : Streamed maxBody h c w) {item : FrameItem} {rest : List FrameItem}
    (hinbox : w.inbox = item :: rest) :
    Streamed maxBody (h ++ [.arrived c item]) c { w with inbox := rest } := by
  have hbytes : (h ++ [Event.arrived c item]).flatMap (Event.bytesOn c) =
      h.flatMap (Event.bytesOn c) := by
    simp [List.flatMap_append, Event.bytesOn]
  refine ⟨?_, ?_, ?_⟩
  · rw [hbytes]
    exact hs.decoder
  · rw [hbytes, ← hs.items, hinbox, List.filterMap_append]
    simp [Event.itemOn?]
  · rw [List.countP_append, hs.failures]
    rfl

theorem fail (hs : Streamed maxBody h c w) (hfailed : w.failed = false) (e : CallError) :
    Streamed maxBody (h ++ [.failed c e]) c { w with failed := true } := by
  have hbytes : (h ++ [Event.failed c e]).flatMap (Event.bytesOn c) =
      h.flatMap (Event.bytesOn c) := by
    simp [List.flatMap_append, Event.bytesOn]
  refine ⟨?_, ?_, ?_⟩
  · rw [hbytes]
    exact hs.decoder
  · have hnone : [Event.failed c e].filterMap (Event.itemOn? c) = [] := rfl
    rw [hbytes, List.filterMap_append, hnone, List.append_nil]
    exact hs.items
  · rw [List.countP_append, hs.failures, hfailed]
    simp [Event.isFailure]

/-- Where the boundaries are lost, the fault is the last thing that comes in. -/
theorem lost (hs : Streamed maxBody h c w) {front x : Bytes} {items : List FrameItem}
    {fault : FrameFault} (hfront : FrameStream.drain maxBody front = ⟨items, [], false⟩)
    (hx : FrameStream.scan maxBody x = .poison fault)
    (hbytes : h.flatMap (Event.bytesOn c) = front ++ x) :
    h.filterMap (Event.itemOn? c) ++ w.inbox = items ++ [.error fault] ∧
      w.decoder.poisoned = true := by
  have hdrain : FrameStream.drain maxBody (front ++ x) = ⟨items ++ [.error fault], [], true⟩ := by
    rw [FrameStream.drain_append, hfront, FrameStream.Rest.andThen_sound rfl]
    dsimp only
    rw [List.nil_append, FrameStream.drain_poison hx]
  rw [hs.items, hs.decoder, FrameStream.after, hbytes, hdrain]
  exact ⟨rfl, rfl⟩

end Streamed

namespace Client

variable {cl : Client} {h : List Event} {c : ConnectionId} {n : CallId} {call : ClientCall}

/-! ### Steps that bring nothing in -/

/-- Whether all connections are as they were. -/
def Calm (cl next : Client) : Prop := ∀ d, (next.wire d).Alike (cl.wire d)

theorem calm_refl (cl : Client) : cl.Calm cl := fun _ => ⟨rfl, rfl, rfl⟩

theorem calm_setWire {w : Wire} (hw : w.Alike (cl.wire c)) : cl.Calm (cl.setWire c w) := by
  intro d
  rw [wire_setWire]
  split
  · next hdc => exact hdc ▸ hw
  · exact ⟨rfl, rfl, rfl⟩

theorem calm_mark {w : Wire} (hw : w.Alike (cl.wire c)) (reason : CallError) :
    cl.Calm (cl.mark c w reason) := by
  unfold mark
  split
  · have hmarked : cl.Calm (cl.setWire c { w with reason := some reason }) :=
      calm_setWire ⟨hw.decoder, hw.inbox, hw.failed⟩
    exact hmarked
  · exact calm_setWire hw

theorem calm_stopReading (reason : CallError) : cl.Calm (cl.stopReading c reason) := by
  unfold stopReading
  dsimp only
  split
  · exact calm_mark (w := { cl.wire c with reading := false }) ⟨rfl, rfl, rfl⟩ reason
  · exact calm_refl cl

theorem calm_failWriting (reason : String) : cl.Calm (cl.failWriting c reason) := by
  unfold failWriting
  split
  · exact calm_mark ⟨rfl, rfl, rfl⟩ _
  · exact calm_refl cl

theorem calm_write : cl.Calm (cl.write c) := by
  unfold write
  dsimp only
  split
  · next b rest hqueue =>
    have hwritten : cl.Calm
        (cl.setWire c { cl.wire c with queue := rest, written := (cl.wire c).written ++ [b] }) :=
      calm_setWire ⟨rfl, rfl, rfl⟩
    exact hwritten
  · exact calm_refl cl

/-! ### Steps of one call -/

/-- Whether a step of one call leaves the others alone, and whatever comes in. -/
structure Alone (n : CallId) (cl next : Client) : Prop where
  calls : ∀ m, m ≠ n → next.calls[m]? = cl.calls[m]?
  calm : cl.Calm next

theorem alone_refl (n : CallId) (cl : Client) : Alone n cl cl := ⟨fun _ _ => rfl, calm_refl cl⟩

theorem alone_setPhase {next : Client} {phase : CallPhase} (hcalls : next.calls = cl.calls)
    (hcalm : cl.Calm next) : Alone n cl (next.setPhase n phase) where
  calls m hm := by
    rw [← hcalls]
    exact List.getElem?_modify_ne _ _ hm.symm
  calm := hcalm

theorem alone_begin : Alone n cl (cl.begin n call) := by
  unfold begin
  split
  · exact alone_setPhase rfl (calm_refl cl)
  · split <;> exact alone_setPhase rfl (calm_refl cl)

theorem alone_enter {a : AttemptId} : Alone n cl (cl.enter n call a) := by
  unfold enter
  split
  · exact alone_setPhase rfl (calm_refl cl)
  · exact alone_setPhase rfl (calm_refl cl)
  · exact alone_refl n cl

theorem alone_enqueue {a : AttemptId} {t : TicketId} : Alone n cl (cl.enqueue n call a c t) := by
  unfold enqueue
  dsimp only
  split
  · exact alone_refl n cl
  · next b _ =>
    split
    · have hqueued : cl.Calm (cl.setWire c { cl.wire c with queue := (cl.wire c).queue ++ [b] }) :=
        calm_setWire ⟨rfl, rfl, rfl⟩
      exact alone_setPhase rfl hqueued
    · exact alone_refl n cl

theorem alone_look {t : TicketId} : Alone n cl (cl.look n c t) := by
  unfold look
  split
  · exact alone_setPhase rfl (calm_refl cl)
  · exact alone_setPhase rfl (calm_refl cl)
  · exact alone_refl n cl

theorem alone_proceed : Alone n cl (cl.proceed n call) := by
  unfold proceed
  split
  · exact alone_begin
  · exact alone_enter
  · split <;> exact alone_setPhase rfl (calm_refl cl)
  · exact alone_enqueue
  · exact alone_setPhase rfl (calm_refl cl)
  · exact alone_look
  · exact alone_refl n cl
  · exact alone_refl n cl

theorem alone_refuseFrame : Alone n cl (cl.refuseFrame n call) := by
  unfold refuseFrame
  split
  · split
    · exact alone_setPhase rfl (calm_refl cl)
    · exact alone_refl n cl
  · exact alone_refl n cl

theorem alone_expire : Alone n cl (cl.expire n call) := by
  unfold expire
  split
  · dsimp only
    split
    · exact alone_setPhase rfl (calm_refl cl)
    · exact alone_refl n cl
  · exact alone_refl n cl

theorem alone_giveUp : Alone n cl (cl.giveUp n call) := by
  unfold giveUp
  split
  · split
    · exact alone_setPhase rfl (calm_refl cl)
    · exact alone_setPhase rfl (calm_refl cl)
    · exact alone_refl n cl
  · exact alone_setPhase rfl (calm_refl cl)
  · exact alone_setPhase rfl (calm_refl cl)
  · exact alone_refl n cl

theorem calm_onCall {f : Client → CallId → ClientCall → Client}
    (hf : ∀ call, Alone n cl (f cl n call)) : cl.Calm (cl.onCall n f) := by
  unfold onCall
  split
  · next call _ => exact (hf call).calm
  · exact calm_refl cl

/-- Every connection of a client is streamed, and those whose calls have failed are closed. -/
structure Streams (cl : Client) (h : List Event) : Prop where
  streamed : ∀ c, Streamed cl.config.maxBody.toNat h c (cl.wire c)
  closed : ∀ c, (cl.wire c).failed = true → cl.pool.Reached c 2

/-! ### Events of calls -/

theorem silent_proceedEvent? (ev : Event) (hev : ev ∈ (cl.proceedEvent? n call).toList)
    (c : ConnectionId) : ev.Silent c := by
  rw [Option.mem_toList] at hev
  unfold proceedEvent? at hev
  split at hev
  · split at hev <;> cases hev
    exact ⟨rfl, rfl, rfl⟩
  · split at hev <;> cases hev
    exact ⟨rfl, rfl, rfl⟩
  · cases hev

theorem silent_refusalEvent? (ev : Event) (hev : ev ∈ (cl.refusalEvent? n call).toList)
    (c : ConnectionId) : ev.Silent c := by
  rw [Option.mem_toList] at hev
  unfold refusalEvent? at hev
  split at hev
  · split at hev <;> cases hev
    exact ⟨rfl, rfl, rfl⟩
  · cases hev

theorem silent_expiryEvent? (ev : Event) (hev : ev ∈ (cl.expiryEvent? n call).toList)
    (c : ConnectionId) : ev.Silent c := by
  rw [Option.mem_toList] at hev
  unfold expiryEvent? at hev
  split at hev
  · split at hev <;> cases hev
    exact ⟨rfl, rfl, rfl⟩
  · cases hev

/-- Where nothing happens, nothing comes in. -/
theorem silent_nil : ∀ ev ∈ ([] : List Event), ∀ c, ev.Silent c := fun _ hev =>
  absurd hev List.not_mem_nil

/-- The events of a call are silent if they are for each call. -/
theorem silent_bind {event : ClientCall → Option Event}
    (hevent : ∀ call, ∀ ev ∈ (event call).toList, ∀ c, ev.Silent c) :
    ∀ ev ∈ ((cl.calls[n]?).bind event).toList, ∀ c, ev.Silent c := by
  cases cl.calls[n]? with
  | none => exact silent_nil
  | some call => exact hevent call

/-! ### Steps -/

namespace Streams

theorem calm (hs : Streams cl h) {next : Client} {events : List Event} (hcalm : cl.Calm next)
    (hconfig : next.config = cl.config) (hgrows : cl.pool.Grows next.pool)
    (hsilent : ∀ ev ∈ events, ∀ c, ev.Silent c) : Streams next (h ++ events) where
  streamed c := by
    rw [hconfig]
    exact ((hs.streamed c).congr (hcalm c)).silent fun ev hev => hsilent ev hev c
  closed c hc := hgrows.reached (hs.closed c ((hcalm c).failed ▸ hc))

/-- Something happens on one connection only. -/
theorem setWire (hs : Streams cl h) {w : Wire} {ev : Event}
    (hw : Streamed cl.config.maxBody.toNat (h ++ [ev]) c w) (hothers : ∀ d, d ≠ c → ev.Silent d)
    (hclosed : w.failed = true → cl.pool.Reached c 2) : Streams (cl.setWire c w) (h ++ [ev]) where
  streamed d := by
    rw [wire_setWire]
    split
    · next hdc => exact hdc ▸ hw
    · next hdc =>
      refine (hs.streamed d).silent fun x hx => ?_
      rw [List.mem_singleton.1 hx]
      exact hothers d hdc
  closed d hd := by
    rw [wire_setWire] at hd
    split at hd
    · next hdc => exact hdc ▸ hclosed hd
    · exact hs.closed d hd

theorem receive (hs : Streams cl h) (chunk : Bytes) :
    Streams (cl.receive c chunk) (h ++ (cl.event? (.receive c chunk)).toList) := by
  unfold Client.receive
  rw [event?, takes]
  dsimp only
  split
  · next htakes =>
    simp only [Bool.and_eq_true, Bool.not_eq_true', List.isEmpty_iff] at htakes
    obtain ⟨⟨-, hinbox⟩, hsound⟩ := htakes
    refine hs.setWire ((hs.streamed c).receive hinbox hsound chunk) (fun d hd => ⟨?_, rfl, rfl⟩)
      (hs.closed c)
    exact if_neg hd.symm
  · simpa using hs

theorem handle (hs : Streams cl h) (hgrows : cl.pool.Grows (cl.handle c).pool) :
    Streams (cl.handle c) (h ++ (cl.event? (.handle c)).toList) := by
  unfold Client.handle at hgrows ⊢
  rw [event?]
  dsimp only at hgrows ⊢
  cases hinbox : (cl.wire c).inbox with
  | cons item rest =>
    have hwire : Streams (cl.setWire c { cl.wire c with inbox := rest }) (h ++ [.arrived c item]) :=
      hs.setWire ((hs.streamed c).handle hinbox) (fun d hd => ⟨rfl, if_neg hd.symm, rfl⟩)
        (hs.closed c)
    dsimp only [List.head?_cons, Option.map_some, Option.toList_some]
    unfold takeItem
    split <;> exact ⟨hwire.streamed, hwire.closed⟩
  | nil =>
    rw [hinbox] at hgrows
    rw [List.head?_nil, Option.map_none, Option.toList_none]
    dsimp only at hgrows ⊢
    split
    · next hlost =>
      rw [if_pos hlost] at hgrows
      have halike : Wire.Alike { cl.wire c with reading := false, inbox := [] } (cl.wire c) :=
        ⟨rfl, hinbox.symm, rfl⟩
      refine hs.calm (calm_mark halike _) ?_ hgrows silent_nil
      unfold mark
      split <;> rfl
    · exact hs.calm (calm_refl cl) rfl (.refl _) silent_nil

theorem fail (hs : Streams cl h) :
    Streams (cl.fail c) (h ++ (cl.event? (.fail c)).toList) := by
  unfold Client.fail
  rw [event?]
  dsimp only
  split
  · next hclosed =>
    simp only [Bool.and_eq_true, decide_eq_true_eq, Bool.not_eq_true'] at hclosed
    obtain ⟨hstate, hfailed⟩ := hclosed
    have hwire : Streams (cl.setWire c { cl.wire c with failed := true })
        (h ++ [.failed c ((cl.wire c).reason.getD (cl.closedError c))]) := by
      refine hs.setWire ((hs.streamed c).fail hfailed _) (fun d hd => ⟨rfl, rfl, ?_⟩) fun _ => ?_
      · exact decide_eq_false hd.symm
      · obtain ⟨s, hs, hstate⟩ := Option.map_eq_some_iff.1 hstate
        exact ⟨s, hs, by rw [hstate]; decide⟩
    exact ⟨hwire.streamed, hwire.closed⟩
  · simpa using hs

theorem step (hs : Streams cl h) (hledger : Ledger (fun _ _ => True) cl) (action : Action) :
    Streams (cl.step action) (h ++ (cl.event? action).toList) := by
  by_cases hreceive : ∃ c chunk, action = .receive c chunk
  · obtain ⟨c, chunk, rfl⟩ := hreceive
    exact hs.receive chunk
  have hmoves : Moves (fun _ _ => True) cl (cl.step action) :=
    (Moves.start hledger).step fun c chunk heq => hreceive ⟨c, chunk, heq⟩
  have hquiet (hcalm : cl.Calm (cl.step action))
      (hsilent : ∀ ev ∈ (cl.event? action).toList, ∀ c, ev.Silent c) :
      Streams (cl.step action) (h ++ (cl.event? action).toList) :=
    hs.calm hcalm hmoves.config hmoves.grows hsilent
  cases action with
  | receive c chunk => exact absurd ⟨c, chunk, rfl⟩ hreceive
  | handle c => exact hs.handle hmoves.grows
  | fail c => exact hs.fail
  | proceed n =>
    exact hquiet (calm_onCall fun _ => alone_proceed) (silent_bind fun _ => silent_proceedEvent?)
  | writerGone n =>
    exact hquiet (calm_onCall fun _ => alone_refuseFrame) (silent_bind fun _ => silent_refusalEvent?)
  | timeOut n =>
    exact hquiet (calm_onCall fun _ => alone_expire) (silent_bind fun _ => silent_expiryEvent?)
  | abandon n => exact hquiet (calm_onCall fun _ => alone_giveUp) silent_nil
  | endOfStream c | readFails c reason => exact hquiet (calm_stopReading _) silent_nil
  | writeFails c reason => exact hquiet (calm_failWriting _) silent_nil
  | write c => exact hquiet calm_write silent_nil
  | call address wish => exact hquiet (calm_refl cl) silent_nil
  | pool a =>
    refine hquiet ?_ silent_nil
    rw [Client.step]
    split <;> exact calm_refl cl
  | shutDown | shutPool =>
    refine hquiet ?_ silent_nil
    rw [Client.step]
    split <;> exact calm_refl cl
  | failAll =>
    refine hquiet ?_ fun ev hev c => ?_
    · rw [Client.step]
      split <;> exact calm_refl cl
    · rw [event?, Option.mem_toList] at hev
      split at hev <;> cases hev
      exact ⟨rfl, rfl, rfl⟩

theorem new (config : TransportConfig) : Streams (.new config) [] where
  streamed c := by
    refine ⟨(FrameStream.after_nil _).symm, ?_, rfl⟩
    show [] = (FrameStream.drain _ []).items
    rw [FrameStream.drain_wait (show FrameStream.scan _ [] = .wait from rfl)]
  closed c hc := by cases hc

end Streams

end Client
end RemoteCall.Transport
