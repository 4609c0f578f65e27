import Mathlib.Data.List.Induction
import Mathlib.Data.List.Perm.Basic
import RemoteCall.Proofs.Message.Delivery
import RemoteCall.Proofs.Server.Replies

/-! Every request on a connection is answered once.

What a server owes to a frame is said without the server (`Answers`): a heartbeat comes back
without a body, a request that cannot be read is refused, and any other gets what the first
handler for its method makes of it, or word of a failure. Whatever bytes come in, however they
are cut, and in whichever order handlers finish, the frames that were written are at every
moment answers to some of the frames that ask for one, and the others are still being worked
on (`Tally`). When all handlers have finished, each is answered (`replies_answer`).

A handler may make something else of the same request at another time, so what it makes of it
is a function of the world in which it finishes. -/
namespace RemoteCall.Server
variable {World : Type}

/-! ### Offers -/

/-- A handler that is offered for a method. -/
structure Offer (World : Type) where
  service : String
  method : String
  handler : World → MethodHandler

/-- The methods of a server to which handlers were offered one by one, as they are in a world. -/
def endpointOf (offers : List (Offer World)) (w : World) : Endpoint :=
  offers.foldl (fun e o => (e.register o.service o.method (o.handler w)).2) {}

/-- The first offer for the method of a request. -/
def firstOffer (offers : List (Offer World)) (r : Request) : Option (Offer World) :=
  offers.find? fun o => o.service = r.serviceName && o.method = r.methodName

/-! ### What is owed -/

/-- What a request is owed, given the world in which its handler finishes, or none if it is
answered without a handler. -/
def owed (offers : List (Offer World)) (f : Frame) : Option World → Option (Status × Response)
  | none =>
    match f.header.serializer.decode Request.shape f.body with
    | .error e => some (.badRequest, .failure "bad request" (CallError.value e).message)
    | .ok _ => none
  | some w =>
    match f.header.serializer.decode Request.shape f.body with
    | .error _ => none
    | .ok r =>
      match firstOffer offers r with
      | none => some (.badResponse, .failure "method not found"
          s!"no handler registered for {r.serviceName}.{r.methodName}")
      | some o =>
        match o.handler w ⟨f.header.serializer, f.header.requestId⟩ r with
        | .ok response => some (.ok, response)
        | .error reason => some (.badResponse, .failure "handler failed" reason)

/-- Whether a frame asks for an answer. -/
def asks (f : Frame) : Bool := f.header.type = .request || f.header.type = .heartBeat

/-- Whether one frame answers another. -/
def Answers (offers : List (Offer World)) (f : Frame) (w : Option World) (g : Frame) : Prop :=
  match f.header.type with
  | .heartBeat => w = none ∧ g = ⟨{ f.header with bodyLength := 0 }, []⟩
  | .request => ∃ status response, owed offers f w = some (status, response) ∧
      g.body = f.header.serializer.encode Response.shape response ∧
      g.header = { f.header with
        type := .response
        status := status
        bodyLength := UInt32.ofNat g.body.length }
  | .response | .others => False

/-- Whether all that may be owed to a frame fits into one. -/
def Fits (offers : List (Offer World)) (f : Frame) : Prop :=
  f.header.type = .request → ∀ w status response, owed offers f w = some (status, response) →
    (f.header.serializer.encode Response.shape response).length ≤ maxFrameBody

/-! ### What happens on a connection -/

inductive Event (World : Type) where
  | receive (chunk : Bytes)
  /-- The handler of a running request finishes. -/
  | finish (n : Nat) (w : World)

/-- All bytes that came in. -/
def received (events : List (Event World)) : Bytes :=
  events.flatMap fun
    | .receive chunk => chunk
    | .finish _ _ => []

/-- The worlds in which handlers finished. -/
def worlds (events : List (Event World)) : List World :=
  events.filterMap fun
    | .receive _ => none
    | .finish _ w => some w

/-- The frames that a stream of bytes yields. -/
def frames (maxBody : Nat) (b : Bytes) : List Frame :=
  (FrameStream.drain maxBody b).items.filterMap Except.toOption

namespace Connection

def step (offers : List (Offer World)) (c : Connection) : Event World → Connection
  | .receive chunk => c.receive chunk
  | .finish n w => c.finish (endpointOf offers w) n

def run (offers : List (Offer World)) (c : Connection) (events : List (Event World)) :
    Connection := events.foldl (step offers) c

end Connection

/-! ### The first offer counts -/

theorem handler?_register (e : Endpoint) (service method : String) (handler : MethodHandler)
    (r : Request) :
    (e.register service method handler).2.handler? r.serviceName r.methodName =
      (e.handler? r.serviceName r.methodName).or
        (if service = r.serviceName && method = r.methodName then some handler else none) := by
  unfold Endpoint.register
  split
  · next hhas =>
    cases hfound : e.handler? r.serviceName r.methodName with
    | some h => rfl
    | none =>
      rw [if_neg]
      · rfl
      · intro hsame
        simp only [Bool.and_eq_true, decide_eq_true_eq] at hsame
        rw [Endpoint.hasMethod, hsame.1, hsame.2, hfound] at hhas
        cases hhas
  · simp only [Endpoint.handler?, List.find?_append, List.find?_singleton, Option.map_or]
    congr 1
    split <;> rfl

theorem handler?_endpointOf (offers : List (Offer World)) (w : World) (r : Request) :
    (endpointOf offers w).handler? r.serviceName r.methodName =
      (firstOffer offers r).map fun o => o.handler w := by
  have hfold (e : Endpoint) :
      (offers.foldl (fun e o => (e.register o.service o.method (o.handler w)).2) e).handler?
          r.serviceName r.methodName =
        (e.handler? r.serviceName r.methodName).or
          ((firstOffer offers r).map fun o => o.handler w) := by
    induction offers generalizing e with
    | nil => simp [firstOffer]
    | cons o rest ih =>
      rw [List.foldl_cons, ih, handler?_register, Option.or_assoc]
      congr 1
      simp only [firstOffer, List.find?_cons]
      cases decide (o.service = r.serviceName) && decide (o.method = r.methodName) with
      | true => rfl
      | false => rfl
  exact hfold {}

/-- A request that was read is owed what its handler's reply says. -/
theorem owed_of_read (offers : List (Offer World)) (w : World) {f : Frame} {r : Request}
    (hread : f.header.serializer.decode Request.shape f.body = .ok r) :
    owed offers f (some w) = some
      ((endpointOf offers w).dispatch ⟨f.header.serializer, f.header.requestId⟩ r) := by
  simp only [owed, hread, Endpoint.dispatch, handler?_endpointOf]
  cases firstOffer offers r with
  | none => rfl
  | some o =>
    simp only [Option.map_some]
    cases o.handler w ⟨f.header.serializer, f.header.requestId⟩ r with
    | ok response => rfl
    | error reason => rfl

/-! ### Frames that come in -/

theorem frames_append (maxBody : Nat) (b chunk : Bytes) :
    frames maxBody (b ++ chunk) =
      frames maxBody b ++ ((FrameStream.after maxBody b).feed chunk).1.filterMap Except.toOption := by
  rw [frames, FrameStream.items_append, List.filterMap_append]
  cases hpoisoned : (FrameStream.after maxBody b).poisoned with
  | false => rfl
  | true =>
    rw [FrameStream.feed, hpoisoned]
    rfl

theorem canonical_of_mem_frames {maxBody : Nat} {b : Bytes} {f : Frame}
    (h : f ∈ frames maxBody b) : ∃ l, f.header.Canonical l := by
  obtain ⟨item, hitem, hok⟩ := List.mem_filterMap.1 h
  cases item with
  | error fault => cases hok
  | ok g =>
    cases hok
    exact FrameStream.canonical_of_mem_drain hitem

/-! ### The tally -/

/-- An answer on record. -/
structure Answer (World : Type) where
  frame : Frame
  /-- The world in which a handler gave it, if one did. -/
  world : Option World
  /-- What was written. -/
  bytes : Bytes

/-- Whether an answer is a complete frame, and the right one. -/
def Answer.Right (offers : List (Offer World)) (a : Answer World) : Prop :=
  ∃ g, Frame.decode a.bytes = .ok g ∧ a.bytes.length = headerSize + g.body.length ∧
    Answers offers a.frame a.world g

/-- Whether a job is that of a frame. -/
structure JobOf (f : Frame) (job : Job) : Prop where
  type : f.header.type = .request
  header : job.header = f.header
  request : f.header.serializer.decode Request.shape f.body = .ok job.request

/-- How a connection stands after some frames and some worlds: which frames were answered, and
which are being worked on. -/
structure Tally (offers : List (Offer World)) (seen : List Frame) (passed : List World)
    (c : Connection) (answers : List (Answer World)) (waiting : List (Frame × Job)) : Prop where
  all : (answers.map Answer.frame ++ waiting.map Prod.fst).Perm (seen.filter asks)
  worlds : (answers.filterMap Answer.world).Sublist passed
  right : ∀ a ∈ answers, a.Right offers
  replies : answers.map Answer.bytes = c.replies
  jobs : ∀ x ∈ waiting, JobOf x.1 x.2
  running : waiting.map Prod.snd = c.running

/-- Whether everything owed to a frame can be written. -/
def Answerable (offers : List (Offer World)) (f : Frame) : Prop :=
  (∃ l, f.header.Canonical l) ∧ Fits offers f

/-- A message of the right type, with a header that its layout can hold and a body that fits, is
written as a complete frame. -/
theorem write_eq (c : Connection) {m : Message} (hc : ∃ l, m.header.Canonical l)
    (htype : m.header.type = m.body.type) (hlen : m.bodyBytes.length ≤ maxFrameBody) :
    ∃ b, c.write m = { c with replies := c.replies ++ [b] } ∧ Frame.decode b = .ok m.framed ∧
      b.length = headerSize + m.framed.body.length := by
  obtain ⟨l, hc⟩ := hc
  have hencode := Message.encode_of_canonical hc htype hlen
  refine ⟨m.framed.header.bytesIn l ++ m.bodyBytes, ?_, ?_, ?_⟩
  · rw [Connection.write, hencode]
  · have hread := (Message.whole_framed hc).decode_append (Message.encode_framed hencode).2 []
    rwa [List.append_nil] at hread
  · rw [List.length_append, Header.length_bytesIn]
    rfl

theorem canonical_replyTo {f : Frame} (hc : ∃ l, f.header.Canonical l) (status : Status)
    (response : Response) : ∃ l, (Message.replyTo f.header status response).header.Canonical l := by
  obtain ⟨l, hc⟩ := hc
  exact ⟨l, hc.magic, hc.version, hc.reserved⟩

/-- A reply with what is owed to a request answers it. -/
theorem answers_replyTo {offers : List (Offer World)} {f : Frame} {w : Option World}
    {status : Status} {response : Response} (htype : f.header.type = .request)
    (howed : owed offers f w = some (status, response)) :
    Answers offers f w (Message.replyTo f.header status response).framed := by
  rw [Answers, htype]
  exact ⟨status, response, howed, rfl, rfl⟩

/-- What the server writes for a job is the reply that is owed to its frame. -/
theorem replyOf_eq (offers : List (Offer World)) (w : World) {f : Frame} {job : Job}
    (hjob : JobOf f job) : ∃ status response, owed offers f (some w) = some (status, response) ∧
      Connection.replyOf (endpointOf offers w) job = .replyTo f.header status response := by
  refine ⟨_, _, owed_of_read offers w hjob.request, ?_⟩
  rw [Connection.replyOf, hjob.header]
  rfl

/-- What is taken out of a list, and what is left of it. -/
theorem perm_eraseIdx {α : Type} {l : List α} {n : Nat} {x : α} (h : l[n]? = some x) :
    l.Perm (x :: l.eraseIdx n) := by
  obtain ⟨hn, rfl⟩ := List.getElem?_eq_some_iff.1 h
  exact (List.getElem_cons_eraseIdx_perm hn).symm

namespace Tally
variable {offers : List (Offer World)} {seen : List Frame} {passed : List World}
  {c : Connection} {answers : List (Answer World)} {waiting : List (Frame × Job)} {f : Frame}

theorem empty (maxBody : Nat) : Tally offers [] [] (.new maxBody) [] [] where
  all := List.Perm.refl _
  worlds := List.Sublist.refl _
  right _ h := by cases h
  replies := rfl
  jobs _ h := by cases h
  running := rfl

/-- A frame that asks for nothing. -/
theorem skip (h : Tally offers seen passed c answers waiting) (hask : asks f = false) :
    Tally offers (seen ++ [f]) passed c answers waiting where
  all := by
    have hnone : [f].filter asks = [] := List.filter_cons_of_neg (Bool.eq_false_iff.1 hask)
    rw [List.filter_append, hnone, List.append_nil]
    exact h.all
  worlds := h.worlds
  right := h.right
  replies := h.replies
  jobs := h.jobs
  running := h.running

/-- One frame more is answered: `answers` and `waiting` account for all others. -/
theorem record {w : Option World} {m : Message}
    (hall : (answers.map Answer.frame ++ f :: waiting.map Prod.fst).Perm (seen.filter asks))
    (hworlds : (answers.filterMap Answer.world ++ w.toList).Sublist passed)
    (hright : ∀ a ∈ answers, a.Right offers) (hreplies : answers.map Answer.bytes = c.replies)
    (hjobs : ∀ x ∈ waiting, JobOf x.1 x.2) (hrunning : waiting.map Prod.snd = c.running)
    (hc : ∃ l, m.header.Canonical l) (htype : m.header.type = m.body.type)
    (hlen : m.bodyBytes.length ≤ maxFrameBody) (hanswers : Answers offers f w m.framed) :
    ∃ b, Tally offers seen passed (c.write m) (answers ++ [⟨f, w, b⟩]) waiting := by
  obtain ⟨b, hwrite, hdecode, hlength⟩ := write_eq c hc htype hlen
  rw [hwrite]
  refine ⟨b, ?_, ?_, fun a ha => ?_, ?_, hjobs, hrunning⟩
  · rw [List.map_append, List.append_assoc]
    exact hall
  · rw [List.filterMap_append]
    cases w with
    | none => exact hworlds
    | some w => exact hworlds
  · obtain ha | ha := List.mem_append.1 ha
    · exact hright a ha
    · rw [List.mem_singleton.1 ha]
      exact ⟨_, hdecode, hlength, hanswers⟩
  · rw [List.map_append, hreplies]
    rfl

/-- A frame that is answered as soon as it comes in. -/
theorem answer (h : Tally offers seen passed c answers waiting) (hask : asks f = true)
    {m : Message} (hc : ∃ l, m.header.Canonical l) (htype : m.header.type = m.body.type)
    (hlen : m.bodyBytes.length ≤ maxFrameBody) (hanswers : Answers offers f none m.framed) :
    ∃ b, Tally offers (seen ++ [f]) passed (c.write m) (answers ++ [⟨f, none, b⟩]) waiting := by
  refine record ?_ ?_ h.right h.replies h.jobs h.running hc htype hlen hanswers
  · have hone : [f].filter asks = [f] := List.filter_cons_of_pos hask
    rw [List.filter_append, hone]
    refine (List.perm_append_comm.append_left _ : (_ ++ ([f] ++ _)).Perm _).trans ?_
    rw [← List.append_assoc]
    exact h.all.append_right [f]
  · exact (List.append_nil _).symm ▸ h.worlds

/-- A request that is handed to a handler. -/
theorem start (h : Tally offers seen passed c answers waiting) {job : Job} (hjob : JobOf f job) :
    Tally offers (seen ++ [f]) passed { c with running := c.running ++ [job] } answers
      (waiting ++ [(f, job)]) where
  all := by
    have hask : asks f = true := by simp [asks, hjob.type]
    have hone : [f].filter asks = [f] := List.filter_cons_of_pos hask
    rw [List.filter_append, hone, List.map_append, ← List.append_assoc]
    exact h.all.append_right [f]
  worlds := h.worlds
  right := h.right
  replies := h.replies
  jobs x hx := by
    obtain hx | hx := List.mem_append.1 hx
    · exact h.jobs x hx
    · rw [List.mem_singleton.1 hx]
      exact hjob
  running := by
    rw [List.map_append, h.running]
    rfl

/-- **Whatever frame comes in, it is answered, worked on, or asks for nothing.** -/
theorem takeFrame (h : Tally offers seen passed c answers waiting) (hf : Answerable offers f) :
    ∃ answers' waiting', Tally offers (seen ++ [f]) passed (c.takeFrame f) answers' waiting' := by
  obtain ⟨hc, hfits⟩ := hf
  unfold Connection.takeFrame
  split
  · next htype =>
    have hright : Answers offers f none (Message.framed ⟨f.header, .heartBeat⟩) := by
      rw [Answers, htype]
      exact ⟨rfl, rfl⟩
    obtain ⟨b, hanswer⟩ := h.answer (by simp [asks, htype]) (m := ⟨f.header, .heartBeat⟩) hc htype
      (Nat.zero_le _) hright
    exact ⟨_, _, hanswer⟩
  · next htype =>
    unfold Connection.takeRequest Message.ofFrame
    rw [htype]
    dsimp only
    cases hread : f.header.serializer.decode Request.shape f.body with
    | ok r => exact ⟨_, _, h.start ⟨htype, rfl, hread⟩⟩
    | error e =>
      have howed : owed offers f none =
          some (.badRequest, Connection.badRequest (.value e)) := by
        rw [owed, hread]
        rfl
      obtain ⟨b, hanswer⟩ := h.answer (by simp [asks, htype]) (canonical_replyTo hc _ _) rfl
        (hfits htype none _ _ howed) (answers_replyTo htype howed)
      exact ⟨_, _, hanswer⟩
  · next htype => exact ⟨_, _, h.skip (by simp [asks, htype])⟩
  · next htype => exact ⟨_, _, h.skip (by simp [asks, htype])⟩

theorem takeItems (h : Tally offers seen passed c answers waiting) {items : List FrameItem}
    (hitems : ∀ f ∈ items.filterMap Except.toOption, Answerable offers f) :
    ∃ answers' waiting', Tally offers (seen ++ items.filterMap Except.toOption) passed
      (items.foldl Connection.takeItem c) answers' waiting' := by
  induction items generalizing c seen answers waiting with
  | nil => exact ⟨_, _, (List.append_nil seen).symm ▸ h⟩
  | cons item rest ih =>
    cases item with
    | error fault => exact ih h hitems
    | ok f =>
      obtain ⟨answers', waiting', hframe⟩ := h.takeFrame (hitems f List.mem_cons_self)
      obtain ⟨answers'', waiting'', hrest⟩ :=
        ih hframe fun g hg => hitems g (List.mem_cons_of_mem f hg)
      refine ⟨answers'', waiting'', ?_⟩
      rw [List.append_assoc] at hrest
      exact hrest

/-- **A handler that finishes answers its request, and no other.** -/
theorem finish (h : Tally offers seen passed c answers waiting)
    (hseen : ∀ f ∈ seen, Answerable offers f) (n : Nat) (w : World) :
    ∃ answers' waiting', Tally offers seen (passed ++ [w])
      (c.finish (endpointOf offers w) n) answers' waiting' := by
  unfold Connection.finish
  cases hn : c.running[n]? with
  | none =>
    exact ⟨_, _, h.all, h.worlds.trans (List.sublist_append_left _ _), h.right, h.replies, h.jobs,
      h.running⟩
  | some job =>
    dsimp only
    rw [← h.running, List.getElem?_map] at hn
    obtain ⟨⟨f, job⟩, hf, rfl⟩ := Option.map_eq_some_iff.1 hn
    have hjob : JobOf f job := h.jobs _ (List.mem_of_getElem? hf)
    have hpick : waiting.Perm ((f, job) :: waiting.eraseIdx n) := perm_eraseIdx hf
    have hmem : f ∈ seen := by
      refine List.mem_of_mem_filter (h.all.mem_iff.1 (List.mem_append_right _ ?_))
      exact List.mem_map_of_mem (List.mem_of_getElem? hf)
    obtain ⟨hc, hfits⟩ := hseen f hmem
    obtain ⟨status, response, howed, hreply⟩ := replyOf_eq offers w hjob
    have hall : (answers.map Answer.frame ++ f :: (waiting.eraseIdx n).map Prod.fst).Perm
        (seen.filter asks) := (List.Perm.append_left _ (hpick.map Prod.fst).symm).trans h.all
    have hrunning : (waiting.eraseIdx n).map Prod.snd = c.running.eraseIdx n := by
      rw [← h.running, List.eraseIdx_map]
    have hlen := hfits hjob.type (some w) status response howed
    rw [hreply]
    obtain ⟨b, hrecord⟩ := record (c := { c with running := c.running.eraseIdx n }) (w := some w)
      (m := .replyTo f.header status response) hall (h.worlds.append (List.Sublist.refl [w]))
      h.right h.replies (fun x hx => h.jobs x (List.mem_of_mem_eraseIdx hx)) hrunning
      (canonical_replyTo hc status response) rfl hlen (answers_replyTo hjob.type howed)
    exact ⟨_, _, hrecord⟩

end Tally

/-! ### Whole runs -/

/-- What is known of a connection on which some events happened. -/
def Stands (offers : List (Offer World)) (maxBody : Nat) (events : List (Event World))
    (c : Connection) : Prop :=
  c.decoder = FrameStream.after maxBody (received events) ∧
    ∃ answers waiting,
      Tally offers (frames maxBody (received events)) (worlds events) c answers waiting

theorem received_append (events : List (Event World)) (e : Event World) :
    received (events ++ [e]) = received events ++ received [e] := List.flatMap_append

theorem worlds_append (events : List (Event World)) (e : Event World) :
    worlds (events ++ [e]) = worlds events ++ worlds [e] := List.filterMap_append

theorem Stands.step {offers : List (Offer World)} {maxBody : Nat} {events : List (Event World)}
    {c : Connection} (h : Stands offers maxBody events c) (e : Event World)
    (hall : ∀ f ∈ frames maxBody (received (events ++ [e])), Answerable offers f) :
    Stands offers maxBody (events ++ [e]) (c.step offers e) := by
  obtain ⟨hdecoder, answers, waiting, htally⟩ := h
  unfold Stands
  rw [received_append] at hall ⊢
  rw [worlds_append]
  cases e with
  | receive chunk =>
    have hreceived : received [(Event.receive chunk : Event World)] = chunk :=
      List.append_nil chunk
    have hworlds : worlds [(Event.receive chunk : Event World)] = [] := rfl
    rw [hreceived] at hall ⊢
    rw [hworlds, List.append_nil]
    rw [frames_append] at hall ⊢
    refine ⟨?_, ?_⟩
    · rw [← FrameStream.feed_after, ← hdecoder]
      exact (Connection.receive_keeps c chunk).1
    · rw [← hdecoder] at hall ⊢
      have hfed : Tally offers (frames maxBody (received events)) (worlds events)
          { c with decoder := (c.decoder.feed chunk).2 } answers waiting :=
        ⟨htally.all, htally.worlds, htally.right, htally.replies, htally.jobs, htally.running⟩
      exact hfed.takeItems fun f hf => hall f (List.mem_append_right _ hf)
  | finish n w =>
    have hreceived : received [Event.finish n w] = [] := rfl
    have hworlds : worlds [Event.finish n w] = [w] := rfl
    rw [hreceived, List.append_nil] at hall ⊢
    rw [hworlds]
    exact ⟨(Connection.finish_keeps _ c n).1.trans hdecoder, htally.finish hall n w⟩

theorem stands_run (offers : List (Offer World)) (maxBody : Nat) (events : List (Event World))
    (hall : ∀ f ∈ frames maxBody (received events), Answerable offers f) :
    Stands offers maxBody events (Connection.run offers (.new maxBody) events) := by
  induction events using List.reverseRecOn with
  | nil =>
    refine ⟨(FrameStream.after_nil maxBody).symm, [], [], ?_⟩
    have hnone : frames maxBody [] = [] := by
      rw [frames, FrameStream.drain_wait (show FrameStream.scan maxBody [] = .wait from rfl)]
      rfl
    rw [received, List.flatMap_nil, hnone]
    exact .empty maxBody
  | append_singleton events e ih =>
    have hearlier : ∀ f ∈ frames maxBody (received events), Answerable offers f := by
      intro f hf
      refine hall f ?_
      rw [received_append, frames_append]
      exact List.mem_append_left _ hf
    rw [Connection.run, List.foldl_append]
    exact (ih hearlier).step e hall

/-- **When all handlers have finished, every frame that asks for an answer has one, and nothing
else was written.** The answers are complete frames in the order in which they were given; what
handlers gave was given in the worlds in which they finished. -/
theorem replies_answer (offers : List (Offer World)) (maxBody : Nat) (events : List (Event World))
    (hfits : ∀ f ∈ frames maxBody (received events), Fits offers f)
    (hdone : (Connection.run offers (.new maxBody) events).running = []) :
    ∃ answers : List (Answer World),
      answers.map Answer.bytes = (Connection.run offers (.new maxBody) events).replies ∧
        (answers.map Answer.frame).Perm ((frames maxBody (received events)).filter asks) ∧
        (answers.filterMap Answer.world).Sublist (worlds events) ∧
        ∀ a ∈ answers, a.Right offers := by
  obtain ⟨-, answers, waiting, htally⟩ := stands_run offers maxBody events fun f hf =>
    ⟨canonical_of_mem_frames hf, hfits f hf⟩
  have hnone : waiting = [] := List.map_eq_nil_iff.1 (htally.running.trans hdone)
  have hall := htally.all
  rw [hnone, List.map_nil, List.append_nil] at hall
  exact ⟨answers, htally.replies, hall, htally.worlds, htally.right⟩

/-! ### A case -/

/-- Two handlers for one method, of which the first gives its argument back unless it is busy. -/
def returningIfFree : List (Offer Bool) :=
  [⟨"Sample", "return", fun free _ q =>
      if free then .ok { data := q.args.head? } else .error "busy"⟩,
    ⟨"Sample", "return", fun _ _ _ => .ok (.empty "second")⟩]

/-- A request that ends too early, a heartbeat, two requests, a response, and bytes after which
nothing can be read. -/
def mixedStream : Bytes :=
  let request (id : UInt64) (b : UInt8) : Message :=
    .request .packed .native id { serviceName := "Sample", methodName := "return", args := [[b]] }
  let messages : List Message := [.heartBeat .legacy .json 6, request 7 70, request 9 90,
    .response .packed .native 10 .ok (.empty "done")]
  let short : Frame := ⟨.new .packed .native .request .ok 8, [0]⟩
  (short.encode :: messages.map Message.encode).flatMap (Except.toOption · |>.getD []) ++ [1, 9, 0]

/-- The second of two requests is finished first, and the first one by a handler that is busy. -/
theorem replies_answer_out_of_order :
    let events : List (Event Bool) := [.receive (mixedStream.take 40),
      .receive (mixedStream.drop 40), .finish 1 true, .receive [0], .finish 0 false]
    let c := Connection.run returningIfFree (.new 1000) events
    (∀ f ∈ frames 1000 (received events), Fits returningIfFree f) ∧ c.running = [] ∧
      c.replies.map (fun b => (Frame.decode b).toOption.map fun g =>
          (g.header.requestId, g.header.status)) =
        [some (8, .badRequest), some (6, .ok), some (9, .ok), some (7, .badResponse)] ∧
      ∃ answers : List (Answer Bool), answers.map Answer.bytes = c.replies ∧
        (answers.map Answer.frame).Perm ((frames 1000 (received events)).filter asks) ∧
        (answers.filterMap Answer.world).Sublist (worlds events) ∧
        ∀ a ∈ answers, a.Right returningIfFree := by
  intro events c
  have hbound : ∀ f ∈ frames 1000 (received events), ∀ w ∈ [none, some true, some false],
      (owed returningIfFree f w).all (fun reply =>
        (f.header.serializer.encode Response.shape reply.2).length ≤ maxFrameBody) = true := by
    decide +kernel
  have hfits : ∀ f ∈ frames 1000 (received events), Fits returningIfFree f := by
    intro f hf _ w status response howed
    have hw : w ∈ [none, some true, some false] := by
      cases w with
      | none => decide
      | some free => cases free <;> decide
    have hall := hbound f hf w hw
    rw [howed] at hall
    exact of_decide_eq_true hall
  have hdone : c.running = [] := by decide +kernel
  exact ⟨hfits, hdone, by decide +kernel, replies_answer returningIfFree 1000 events hfits hdone⟩

end RemoteCall.Server
