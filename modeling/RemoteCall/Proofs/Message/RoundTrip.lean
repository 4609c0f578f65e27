import RemoteCall.Proofs.Frame.RoundTrip
import RemoteCall.Proofs.Message.Serializers

/-! A message that is written is read back.

A message is written as a frame of the right type, and the body of that frame is what the
serializer made of the request or the response; since every serializer is faithful, the frame holds
the message (`ofFrame_framed`). -/
namespace RemoteCall.Message

/-- The frame that a message is written as. -/
def framed (m : Message) : Frame := .new m.header m.bodyBytes

variable {m : Message} {b : Bytes} {l : Layout}

theorem encode_framed (h : m.encode = .ok b) :
    m.header.type = m.body.type ∧ m.framed.encode = .ok b := by
  unfold encode at h
  split at h
  · cases h
  · next htype => exact ⟨Decidable.not_not.1 htype, h⟩

theorem whole_framed (hc : m.header.Canonical l) : m.framed.Whole := Frame.whole_new hc _

/-- The frame of a message holds the message. -/
theorem ofFrame_framed (hc : m.header.Canonical l) (h : m.encode = .ok b) :
    ofFrame m.framed = .ok ⟨m.framed.header, m.body⟩ := by
  obtain ⟨htype, hframe⟩ := encode_framed h
  have hlen : m.bodyBytes.length ≤ maxFrameBody := ((whole_framed hc).bytes hframe).1
  have hs := m.header.serializer.faithful
  obtain ⟨header, body⟩ := m
  have hframed : (framed ⟨header, body⟩).header.type = body.type := htype
  unfold ofFrame
  rw [hframed]
  cases body with
  | request r =>
    have hread : (framed ⟨header, .request r⟩).header.serializer.decode Request.shape
        (framed ⟨header, .request r⟩).body = .ok r := hs.request r hlen
    simp only [MessageBody.type, hread]
  | response r =>
    have hread : (framed ⟨header, .response r⟩).header.serializer.decode Response.shape
        (framed ⟨header, .response r⟩).body = .ok r := hs.response r hlen
    simp only [MessageBody.type, hread]
  | heartBeat => rfl

/-- The body of a message that is read is of the type that its frame announces. -/
theorem type_of_ofFrame {f : Frame} (h : ofFrame f = .ok m) : m.body.type = f.header.type := by
  unfold ofFrame at h
  split at h
  · next htype =>
    split at h
    · rw [← Except.ok.inj h, htype]
      rfl
    · cases h
  · next htype =>
    split at h
    · rw [← Except.ok.inj h, htype]
      rfl
    · cases h
  · next htype =>
    rw [← Except.ok.inj h, htype]
    rfl
  · cases h

end RemoteCall.Message
