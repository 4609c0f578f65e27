import RemoteCall.Proofs.Transport.Ledger

/-! Every step of a client leaves its ledger in order.

The steps of calls pass tickets from the table to the call and back; the steps of
connections pass bytes on. Only `receive` brings anything in, so it alone depends on what
comes (`Ledger.feed`); every other step is one of `Moves`. -/
namespace RemoteCall.Transport.Client

variable {fits : UInt64 → Response → Prop} {base cl : Client} {n : CallId} {call : ClientCall}
  {a : AttemptId} {c : ConnectionId} {t : TicketId}

namespace Moves

/-! ### Steps of a call -/

theorem begin (h : Moves fits base cl) (hn : cl.calls[n]? = some call) :
    Moves fits base (cl.begin n call) := by
  unfold Client.begin
  split
  · exact h.stop hn (.inr ⟨_, rfl⟩)
  · split
    · exact h.stop hn (.inr ⟨_, rfl⟩)
    · have hstep := h.poolStep (.arrive call.address)
      refine hstep.goOn hn cl.pending
        (hstep.tickets.setPhase hn fun t ht => by cases ht) (fun _ he => by cases he)
        (fun a ha => ?_) fun c hc => by cases hc
      obtain rfl := CallPhase.acquiring.inj ha
      exact Pool.attempt_arrive cl.pool call.address

theorem enter (h : Moves fits base cl) (hn : cl.calls[n]? = some call)
    (ha : call.phase = .acquiring a) : Moves fits base (cl.enter n call a) := by
  unfold Client.enter
  split
  · next c hphase =>
    refine h.goOn hn _ (h.tickets.register hn c rfl) (fun _ he => by cases he)
      (fun _ ha => by cases ha) fun d hd => ?_
    obtain rfl : c = d := Option.some.inj hd
    obtain ⟨x, hx, haddress⟩ := h.asking call (List.mem_of_getElem? hn) a ha
    have hleased : x.phase = .leased c := by
      simpa [Pool.phase?, hx] using hphase
    rw [← haddress]
    exact Pool.leads_of_hand h.sound h.addressed hx (by rw [hleased]; rfl)
  · exact h.stop hn (.inr ⟨_, rfl⟩)
  · exact h

theorem withdraw (h : Moves fits base cl) (hn : cl.calls[n]? = some call) (a : AttemptId)
    (c : ConnectionId) : Moves fits base (cl.withdraw n call a c) :=
  ((h.setPending (h.tickets.cancel call.id)).poolStep (.release a)).stop hn (.inr ⟨_, rfl⟩)

/-- A frame that is queued is the message of a call to where its connection leads. -/
theorem enqueue (h : Moves fits base cl) (hn : cl.calls[n]? = some call)
    (hc : call.phase = .checked a c t) : Moves fits base (cl.enqueue n call a c t) := by
  unfold Client.enqueue
  dsimp only
  split
  · exact h
  · next b hb =>
    split
    · have hmem := List.mem_of_getElem? hn
      have hposted : cl.Posted c b :=
        ⟨call.letter, List.mem_map_of_mem hmem, hb, h.leading call hmem c (by rw [hc]; rfl)⟩
      have hwire := h.setWire (c := c) (w := { cl.wire c with queue := (cl.wire c).queue ++ [b] })
        rfl List.prefix_rfl id (fun d hd => ?_) fun f hf => hf
      · exact (hwire.poolStep (.queue c)).keepTicket hn (by rw [hc]; rfl) (by rw [hc]; rfl) rfl
      · obtain hd | hd := hd
        · obtain hd | hd := List.mem_append.1 hd
          · exact h.posted c d (.inl hd)
          · exact List.mem_singleton.1 hd ▸ hposted
        · exact h.posted c d (.inr hd)
    · exact h

/-- A call ends with what its ticket holds. -/
theorem look (h : Moves fits base cl) (hn : cl.calls[n]? = some call)
    (hc : call.phase = .waiting c t) : Moves fits base (cl.look n c t) := by
  have hcollected := h.tickets.collect t
  unfold Client.look
  cases hlot : cl.pending.ticket t with
  | waiting =>
    rw [Pending.collect, hlot]
    exact h
  | closed =>
    rw [Pending.collect, hlot]
    exact (h.setPending h.tickets).stop hn (.inr ⟨_, rfl⟩)
  | answered answer =>
    have hanswer := h.tickets.answered call (List.mem_of_getElem? hn) t answer
      (by rw [hc]; rfl) hlot
    rw [Pending.collect, hlot] at hcollected ⊢
    refine h.goOn hn _ (hcollected.setPhase hn fun _ ht => by cases ht) (fun other he => ?_)
      (fun _ ha => by cases ha) fun _ hd => by cases hd
    exact CallPhase.ended.inj he ▸ hanswer

theorem proceed (h : Moves fits base cl) (hn : cl.calls[n]? = some call) :
    Moves fits base (cl.proceed n call) := by
  unfold Client.proceed
  split
  · exact h.begin hn
  · next a ha => exact h.enter hn ha
  · next a c t hc =>
    split
    · exact h.withdraw hn a c
    · exact h.keepTicket hn (by rw [hc]; rfl) (by rw [hc]; rfl) rfl
  · next hc => exact h.enqueue hn hc
  · next a c t hc =>
    exact (h.poolStep (.release a)).keepTicket hn (by rw [hc]; rfl) (by rw [hc]; rfl) rfl
  · next hc => exact h.look hn hc
  · exact h
  · exact h

theorem refuseFrame (h : Moves fits base cl) (hn : cl.calls[n]? = some call) :
    Moves fits base (cl.refuseFrame n call) := by
  unfold Client.refuseFrame
  split
  · split
    · exact h.withdraw hn _ _
    · exact h
  · exact h

theorem expire (h : Moves fits base cl) (hn : cl.calls[n]? = some call) :
    Moves fits base (cl.expire n call) := by
  unfold Client.expire
  split
  · dsimp only
    split
    · exact (h.setPending (h.tickets.cancel call.id)).stop hn (.inr ⟨_, rfl⟩)
    · exact h
  · exact h

theorem giveUp (h : Moves fits base cl) (hn : cl.calls[n]? = some call) :
    Moves fits base (cl.giveUp n call) := by
  unfold Client.giveUp
  split
  · next a _ =>
    split
    · exact (h.poolStep (.abandon a)).stop hn (.inl rfl)
    · exact (h.poolStep (.abandon a)).stop hn (.inl rfl)
    · exact h
  · next a _ t _ =>
    exact ((h.setPending (h.tickets.leave t)).poolStep (.abandon a)).stop hn (.inl rfl)
  · next _ t _ => exact (h.setPending (h.tickets.leave t)).stop hn (.inl rfl)
  · exact h

theorem onCall (h : Moves fits base cl) (n : CallId) (f : Client → CallId → ClientCall → Client)
    (hf : ∀ call, cl.calls[n]? = some call → Moves fits base (f cl n call)) :
    Moves fits base (cl.onCall n f) := by
  unfold Client.onCall
  split
  · next call hn => exact hf call hn
  · exact h

/-! ### Steps of a connection -/

theorem mark (h : Moves fits base cl) {w : Wire} (decoder : w.decoder = (cl.wire c).decoder)
    (written : w.written = (cl.wire c).written) (queue : w.queue = (cl.wire c).queue)
    (reading : (cl.wire c).reading = false → w.reading = false)
    (inbox : w.inbox = (cl.wire c).inbox) (reason : CallError) :
    Moves fits base (cl.mark c w reason) := by
  have posted (b : Bytes) (hb : b ∈ w.queue ∨ b ∈ w.written) : cl.Posted c b :=
    h.posted c b (queue ▸ written ▸ hb)
  unfold Client.mark
  split
  · exact (h.setWire (w := { w with reason := some reason }) decoder (written ▸ List.prefix_rfl)
      reading posted fun f hf => inbox ▸ hf).poolStep (.mark c)
  · exact h.setWire decoder (written ▸ List.prefix_rfl) reading posted fun f hf => inbox ▸ hf

/-- Whatever item is handled, its answer came in under its id. -/
theorem takeItem (h : Moves fits base cl) {item : FrameItem}
    (hitem : ∀ f, item = .ok f → Answer.Fits fits f.header.requestId (Message.ofFrame f)) :
    Moves fits base (cl.takeItem item) := by
  unfold Client.takeItem
  split
  · next number answer hanswer =>
    refine h.setPending (h.tickets.resolve ?_)
    cases item with
    | ok f =>
      obtain ⟨rfl, rfl⟩ := Prod.mk.inj (Option.some.inj hanswer)
      exact hitem f rfl
    | error fault =>
      obtain ⟨_, _, heq⟩ := Option.map_eq_some_iff.1 hanswer
      obtain ⟨rfl, rfl⟩ := Prod.mk.inj heq
      exact Answer.fits_error fits _ _
  · exact h

theorem handle (h : Moves fits base cl) (c : ConnectionId) : Moves fits base (cl.handle c) := by
  unfold Client.handle
  dsimp only
  split
  · next item rest hinbox =>
    have hwire := h.setWire (c := c) (w := { cl.wire c with inbox := rest }) rfl List.prefix_rfl id
      (h.posted c) fun f hf => hinbox ▸ List.mem_cons_of_mem _ hf
    refine hwire.takeItem fun f hf => h.inbox c f ?_
    rw [hinbox, hf]
    exact List.mem_cons_self
  · split
    · exact h.mark (w := { cl.wire c with reading := false }) rfl rfl rfl (fun _ => rfl) rfl _
    · exact h

theorem stopReading (h : Moves fits base cl) (c : ConnectionId) (reason : CallError) :
    Moves fits base (cl.stopReading c reason) := by
  unfold Client.stopReading
  dsimp only
  split
  · exact h.mark (w := { cl.wire c with reading := false }) rfl rfl rfl (fun _ => rfl) rfl _
  · exact h

theorem write (h : Moves fits base cl) (c : ConnectionId) : Moves fits base (cl.write c) := by
  unfold Client.write
  dsimp only
  split
  · next b rest hqueue =>
    refine (h.setWire (c := c)
      (w := { cl.wire c with queue := rest, written := (cl.wire c).written ++ [b] })
      rfl (List.prefix_append _ _) id (fun d hd => ?_) fun f hf => hf).poolStep (.write c)
    obtain hd | hd := hd
    · exact h.posted c d (.inl (hqueue ▸ List.mem_cons_of_mem _ hd))
    · obtain hd | hd := List.mem_append.1 hd
      · exact h.posted c d (.inr hd)
      · exact h.posted c d (.inl (hqueue ▸ List.mem_singleton.1 hd ▸ List.mem_cons_self))
  · exact h

theorem failWriting (h : Moves fits base cl) (c : ConnectionId) (reason : String) :
    Moves fits base (cl.failWriting c reason) := by
  unfold Client.failWriting
  split
  · exact h.mark rfl rfl rfl id rfl _
  · exact h

theorem fail (h : Moves fits base cl) (c : ConnectionId) : Moves fits base (cl.fail c) := by
  unfold Client.fail
  dsimp only
  split
  · exact (h.setPending (h.tickets.failEach _ _)).setWire rfl List.prefix_rfl id (h.posted c)
      fun f hf => hf
  · exact h

/-! ### New calls -/

/-- A new call gets the next id and has nothing yet. -/
theorem startCall (h : Moves fits base cl) (address : String) (wish : Wish) :
    Moves fits base (cl.start address wish) := by
  have hletters : (cl.start address wish).letters = cl.letters ++
      [⟨address, wish.message cl.config.layout cl.config.serializer cl.ids.next⟩] :=
    List.map_append
  have hprefix : cl.letters <+: (cl.start address wish).letters :=
    hletters ▸ List.prefix_append _ _
  have hold {other : ClientCall} (hc : other ∈ (cl.start address wish).calls)
      (hphase : other.phase ≠ .starting) : other ∈ cl.calls := by
    obtain hc | hc := List.mem_append.1 hc
    · exact hc
    · rw [List.mem_singleton.1 hc] at hphase
      exact absurd rfl hphase
  refine ⟨⟨h.sound, h.addressed, fun m letter hm => ?_, ?_, h.tickets.start rfl,
    fun other hc a ha => ?_, fun other hc a ha => ?_, fun other hc d hd => ?_, fun d b hb => ?_,
    h.inbox⟩, ⟨h.config, h.letters.trans hprefix, h.grows, h.decoder, h.written, h.reading⟩⟩
  · rw [hletters] at hm
    rcases Nat.lt_trichotomy m cl.letters.length with hlt | rfl | hgt
    · rw [List.getElem?_append_left hlt] at hm
      exact h.numbered m letter hm
    · rw [List.getElem?_concat_length] at hm
      obtain rfl := Option.some.inj hm
      refine ⟨wish, ?_⟩
      rw [← h.next]
      rfl
    · rw [List.getElem?_eq_none (by rwa [List.length_append, List.length_singleton])] at hm
      cases hm
  · rw [hletters, List.length_append, List.length_singleton, UInt64.ofNat_add, ← h.next]
    rfl
  · exact h.ended other (hold hc (by simp [ha])) a ha
  · exact h.asking other (hold hc (by simp [ha])) a ha
  · refine h.leading other (hold hc fun hphase => ?_) d hd
    rw [hphase] at hd
    cases hd
  · obtain ⟨letter, hletter, hrest⟩ := h.posted d b hb
    exact ⟨letter, hprefix.subset hletter, hrest⟩

/-- **Every step but `receive` is one of the moves.** -/
theorem step (h : Moves fits base cl) {action : Action} (ha : ∀ c chunk, action ≠ .receive c chunk) :
    Moves fits base (cl.step action) := by
  cases action with
  | call address wish => exact h.startCall address wish
  | proceed n => exact h.onCall n _ fun call hn => h.proceed hn
  | writerGone n => exact h.onCall n _ fun call hn => h.refuseFrame hn
  | timeOut n => exact h.onCall n _ fun call hn => h.expire hn
  | abandon n => exact h.onCall n _ fun call hn => h.giveUp hn
  | pool a =>
    unfold Client.step
    dsimp only
    split
    · exact h.poolStep a
    · exact h
  | receive c chunk => exact absurd rfl (ha c chunk)
  | handle c => exact h.handle c
  | endOfStream c => exact h.stopReading c _
  | readFails c reason => exact h.stopReading c _
  | write c => exact h.write c
  | writeFails c reason => exact h.failWriting c reason
  | fail c => exact h.fail c
  | shutDown =>
    unfold Client.step
    dsimp only
    split
    · exact h.setClosing .begun
    · exact h
  | shutPool =>
    unfold Client.step
    dsimp only
    split
    · exact (h.poolStep .shutDown).setClosing .poolShut
    · exact h
  | failAll =>
    unfold Client.step
    dsimp only
    split
    · exact (h.setPending (h.tickets.failEach _ _)).setClosing .complete
    · exact h

end Moves

/-! ### Bytes that come in -/

/-- Whether a client takes no more bytes on a connection. -/
def Deaf (cl : Client) (c : ConnectionId) : Prop :=
  (cl.wire c).reading = false ∨ (cl.wire c).decoder.poisoned = true

/-- A client that has taken some bytes in. -/
def fed (cl : Client) (c : ConnectionId) (chunk : Bytes) : Client :=
  cl.setWire c { cl.wire c with
    inbox := ((cl.wire c).decoder.feed chunk).1
    decoder := ((cl.wire c).decoder.feed chunk).2 }

/-- With nothing left to handle, bytes are taken unless the client is deaf. -/
theorem receive_eq (hinbox : (cl.wire c).inbox.isEmpty = true) (chunk : Bytes) :
    cl.Deaf c ∧ cl.receive c chunk = cl ∨ ¬ cl.Deaf c ∧ cl.receive c chunk = cl.fed c chunk := by
  unfold Deaf receive fed
  cases hreading : (cl.wire c).reading with
  | false => exact .inl ⟨.inl rfl, by simp [hreading]⟩
  | true =>
    cases hpoisoned : (cl.wire c).decoder.poisoned with
    | true => exact .inl ⟨.inr rfl, by simp [hpoisoned]⟩
    | false => exact .inr ⟨by simp, by simp [hreading, hinbox, hpoisoned]⟩

/-- The ledger stays in order if what comes in is in order. -/
theorem Ledger.feed (h : Ledger fits cl) {chunk : Bytes}
    (hitems : ∀ f, .ok f ∈ ((cl.wire c).decoder.feed chunk).1 →
      Answer.Fits fits f.header.requestId (Message.ofFrame f)) :
    Ledger fits (cl.fed c chunk) := by
  unfold fed
  refine ⟨h.sound, h.addressed, h.numbered, h.next, h.tickets, h.ended, h.asking, h.leading,
    fun d b hb => ?_, fun d f hf => ?_⟩
  · rw [wire_setWire] at hb
    split at hb
    · next hdc => exact hdc ▸ h.posted c b hb
    · exact h.posted d b hb
  · rw [wire_setWire] at hf
    split at hf
    · exact hitems f hf
    · exact h.inbox d f hf

end RemoteCall.Transport.Client
