import RemoteCall.Proofs.Message.RoundTrip
import RemoteCall.Server.Connection

/-! What a server's end of a connection writes.

Whatever handlers finish and in whichever order, every response that was written is what the
handlers make of a request that was received, under the id of that request
(`Honest.receive`, `Honest.finish`). This holds as long as every frame that announces a
request holds one; for any other, a server answers without asking a handler. -/
namespace RemoteCall.Server

/-- What the handlers make of a job's request. -/
def Endpoint.responseTo (endpoint : Endpoint) (job : Job) : Response :=
  (endpoint.dispatch ⟨job.header.serializer, job.header.requestId⟩ job.request).2

namespace Connection

variable {asked asked' : Job → Prop} {endpoint : Endpoint} {c : Connection}

/-- A job that was asked for, with a header that its reply can be written with. -/
def Takes (asked : Job → Prop) (job : Job) : Prop := asked job ∧ ∃ l, job.header.Canonical l

/-- A message that is no response to anything but a job that was asked for. -/
def Says (asked : Job → Prop) (endpoint : Endpoint) (m : Message) : Prop :=
  (∃ l, m.header.Canonical l) ∧ ∀ r, m.body = .response r →
    ∃ job, asked job ∧ m.header.requestId = job.header.requestId ∧
      m.header.serializer = job.header.serializer ∧ r = endpoint.responseTo job

/-- A frame that holds a request that was asked for, if it announces one. -/
def Fine (asked : Job → Prop) (f : Frame) : Prop :=
  (∃ l, f.header.Canonical l) ∧ (f.header.type = .request →
    ∃ h r, Message.ofFrame f = .ok ⟨h, .request r⟩ ∧ asked ⟨f.header, r⟩)

structure Honest (asked : Job → Prop) (endpoint : Endpoint) (c : Connection) : Prop where
  jobs : ∀ job ∈ c.running, Takes asked job
  replies : ∀ b ∈ c.replies, ∃ m, Says asked endpoint m ∧ m.encode = .ok b

theorem honest_new (maxBody : Nat) : Honest asked endpoint (.new maxBody) where
  jobs _ hjob := by cases hjob
  replies _ hb := by cases hb

namespace Honest

theorem mono (h : Honest asked endpoint c) (hasked : ∀ job, asked job → asked' job) :
    Honest asked' endpoint c := by
  refine ⟨fun job hjob => ?_, fun b hb => ?_⟩
  · obtain ⟨ha, hc⟩ := h.jobs job hjob
    exact ⟨hasked job ha, hc⟩
  · obtain ⟨m, ⟨hc, hsays⟩, hm⟩ := h.replies b hb
    refine ⟨m, ⟨hc, fun r hr => ?_⟩, hm⟩
    obtain ⟨job, ha, hrest⟩ := hsays r hr
    exact ⟨job, hasked job ha, hrest⟩

theorem write (h : Honest asked endpoint c) {m : Message} (hm : Says asked endpoint m) :
    Honest asked endpoint (c.write m) := by
  unfold Connection.write
  split
  · next b hb =>
    refine ⟨h.jobs, fun d hd => ?_⟩
    obtain hd | hd := List.mem_append.1 hd
    · exact h.replies d hd
    · rw [List.mem_singleton.1 hd]
      exact ⟨m, hm, hb⟩
  · exact h

theorem takeFrame (h : Honest asked endpoint c) {f : Frame} (hf : Fine asked f) :
    Honest asked endpoint (c.takeFrame f) := by
  unfold Connection.takeFrame
  split
  · exact h.write ⟨hf.1, fun r hr => nomatch hr⟩
  · next htype =>
    obtain ⟨header, r, hmessage, hasked⟩ := hf.2 htype
    unfold takeRequest
    rw [hmessage]
    refine ⟨fun job hjob => ?_, h.replies⟩
    obtain hjob | hjob := List.mem_append.1 hjob
    · exact h.jobs job hjob
    · rw [List.mem_singleton.1 hjob]
      exact ⟨hasked, hf.1⟩
  · exact h
  · exact h

theorem takeItems (h : Honest asked endpoint c) {items : List FrameItem}
    (hitems : ∀ f, .ok f ∈ items → Fine asked f) :
    Honest asked endpoint (items.foldl takeItem c) := by
  induction items generalizing c with
  | nil => exact h
  | cons item rest ih =>
    refine ih ?_ fun f hf => hitems f (List.mem_cons_of_mem _ hf)
    cases item with
    | ok f => exact h.takeFrame (hitems f List.mem_cons_self)
    | error fault => exact h

/-- Bytes that hold only fine frames bring only jobs that were asked for. -/
theorem receive (h : Honest asked endpoint c) {chunk : Bytes}
    (hitems : ∀ f, .ok f ∈ (c.decoder.feed chunk).1 → Fine asked f) :
    Honest asked endpoint (c.receive chunk) :=
  takeItems (c := { c with decoder := (c.decoder.feed chunk).2 }) ⟨h.jobs, h.replies⟩ hitems

/-- The reply to a job says what the handlers make of it. -/
theorem finish (h : Honest asked endpoint c) (n : Nat) :
    Honest asked endpoint (c.finish endpoint n) := by
  unfold Connection.finish
  split
  · next job hjob =>
    obtain ⟨hasked, l, hc⟩ := h.jobs job (List.mem_of_getElem? hjob)
    have hrest : Honest asked endpoint { c with running := c.running.eraseIdx n } :=
      ⟨fun other hother => h.jobs other (List.mem_of_mem_eraseIdx hother), h.replies⟩
    refine hrest.write ⟨⟨l, hc.magic, hc.version, hc.reserved⟩, fun r hr => ?_⟩
    exact ⟨job, hasked, rfl, rfl, (MessageBody.response.inj hr).symm⟩
  · exact h

end Honest

/-! ### What was received and what was written -/

theorem decoder_write (c : Connection) (m : Message) : (c.write m).decoder = c.decoder := by
  unfold Connection.write
  split <;> rfl

theorem replies_write (c : Connection) (m : Message) : c.replies <+: (c.write m).replies := by
  unfold Connection.write
  split
  · exact List.prefix_append _ _
  · exact List.prefix_rfl

theorem takeItem_keeps (c : Connection) (item : FrameItem) :
    (c.takeItem item).decoder = c.decoder ∧ c.replies <+: (c.takeItem item).replies := by
  cases item with
  | error fault => exact ⟨rfl, List.prefix_rfl⟩
  | ok f =>
    unfold takeItem takeFrame
    dsimp only
    split
    · exact ⟨decoder_write c _, replies_write c _⟩
    · unfold takeRequest
      split
      · exact ⟨rfl, List.prefix_rfl⟩
      · exact ⟨rfl, List.prefix_rfl⟩
      · exact ⟨decoder_write c _, replies_write c _⟩
    · exact ⟨rfl, List.prefix_rfl⟩
    · exact ⟨rfl, List.prefix_rfl⟩

theorem receive_keeps (c : Connection) (chunk : Bytes) :
    (c.receive chunk).decoder = (c.decoder.feed chunk).2 ∧
      c.replies <+: (c.receive chunk).replies := by
  have fold (items : List FrameItem) (d : Connection) :
      (items.foldl takeItem d).decoder = d.decoder ∧
        d.replies <+: (items.foldl takeItem d).replies := by
    induction items generalizing d with
    | nil => exact ⟨rfl, List.prefix_rfl⟩
    | cons item rest ih =>
      obtain ⟨hdecoder, hreplies⟩ := takeItem_keeps d item
      obtain ⟨hdecoder', hreplies'⟩ := ih (d.takeItem item)
      exact ⟨hdecoder'.trans hdecoder, hreplies.trans hreplies'⟩
  exact fold _ _

theorem finish_keeps (endpoint : Endpoint) (c : Connection) (n : Nat) :
    (c.finish endpoint n).decoder = c.decoder ∧ c.replies <+: (c.finish endpoint n).replies := by
  unfold Connection.finish
  split
  · exact ⟨decoder_write _ _, replies_write { c with running := c.running.eraseIdx n } _⟩
  · exact ⟨rfl, List.prefix_rfl⟩

end Connection
end RemoteCall.Server
