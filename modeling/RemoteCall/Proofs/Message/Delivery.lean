import RemoteCall.Proofs.Message.RoundTrip

/-! A message arrives as it was sent.

Every serializer reads back the requests and the responses that it writes, whatever texts and bytes
are in them, so nothing has to be known of a message but that a frame can hold it.
`encode_delivers` is the whole of it: which messages are refused, and that every other one is
written, takes its header and its body on the wire, and is read back from the front of whatever
bytes it stands in front of. -/
namespace RemoteCall.Message
variable {m : Message} {l : Layout}

theorem encode_of_type_ne (h : m.header.type ≠ m.body.type) :
    m.encode = .error (.unexpectedBody m.header.type) := if_pos h

/-- A message of the right type is refused for the length of its body or its version alone. -/
theorem encode_ne_unexpectedBody (h : m.header.type = m.body.type) (t : MessageType) :
    m.encode ≠ .error (.unexpectedBody t) := by
  rw [encode, if_neg (not_not_intro h), Frame.encode, Header.write]
  intro hfail
  split at hfail
  · cases hfail
  · split at hfail <;> cases hfail

/-- A message of the right type that a frame can hold is written as its header, with the length
of its body, and its body. -/
theorem encode_of_canonical (hc : m.header.Canonical l) (htype : m.header.type = m.body.type)
    (hlen : m.bodyBytes.length ≤ maxFrameBody) :
    m.encode = .ok (m.framed.header.bytesIn l ++ m.bodyBytes) := by
  have hlayout : m.framed.header.layout? = some l := hc.layout?
  have hwrite : m.framed.header.write = .ok (m.framed.header.bytesIn l) := by
    rw [Header.write, hlayout]
  have hframe : ¬ maxFrameBody < m.framed.body.length := Nat.not_lt.2 hlen
  have hsame : Frame.new m.framed.header m.framed.body = m.framed := rfl
  rw [encode, if_neg (not_not_intro htype)]
  show Frame.encode m.framed = _
  rw [Frame.encode, if_neg hframe, hsame, hwrite]
  rfl

/-- **A message arrives as it was sent.** One whose header announces another kind of body than it
has is refused for that, and no other message is. Every other one with a header that its layout
can hold and a body that a frame can hold is written, with the true length of its body; from the
front of its bytes, whatever follows them, it is read as it was but for the length in its
header. -/
theorem encode_delivers (m : Message) :
    (∀ t, m.encode = .error (.unexpectedBody t) ↔
      m.header.type ≠ m.body.type ∧ t = m.header.type) ∧
    ∀ l, m.header.Canonical l → m.header.type = m.body.type →
      m.bodyBytes.length ≤ maxFrameBody →
      ∃ b length, m.encode = .ok b ∧ b.length = headerSize + length.toNat ∧
        length.toNat = m.bodyBytes.length ∧
        ∀ x, decode (b ++ x) = .ok ⟨{ m.header with bodyLength := length }, m.body⟩ := by
  refine ⟨fun t => ⟨fun h => ?_, fun ⟨htype, ht⟩ => ?_⟩, fun l hc htype hlen => ?_⟩
  · by_cases htype : m.header.type = m.body.type
    · exact absurd h (encode_ne_unexpectedBody htype t)
    · rw [encode_of_type_ne htype] at h
      cases h
      exact ⟨htype, rfl⟩
  · rw [ht, encode_of_type_ne htype]
  · have hencode := encode_of_canonical hc htype hlen
    have hlength : (UInt32.ofNat m.bodyBytes.length).toNat = m.bodyBytes.length :=
      (whole_framed hc).bodyLength hlen
    refine ⟨_, .ofNat m.bodyBytes.length, hencode, ?_, hlength, fun x => ?_⟩
    · rw [hlength, List.length_append, Header.length_bytesIn]
    · rw [decode, (whole_framed hc).decode_append (encode_framed hencode).2 x]
      exact ofFrame_framed hc hencode

/-- A response in JSON and the old layout, with an absent result, quotation marks, a control
character and characters of two and of four bytes. -/
theorem encode_delivers_json :
    let m := Message.response .legacy .json 7 .badResponse
      { message := "\"é\u0001\\", fault := some "😀" }
    m.header.Canonical .legacy ∧ m.header.type = m.body.type ∧
      m.bodyBytes.length ≤ maxFrameBody ∧
      ∃ b length, m.encode = .ok b ∧ b.length = headerSize + length.toNat ∧
        length.toNat = m.bodyBytes.length ∧
        ∀ x, decode (b ++ x) = .ok ⟨{ m.header with bodyLength := length }, m.body⟩ := by
  intro m
  have hc : m.header.Canonical .legacy :=
    Header.canonical_new .legacy .json .response .badResponse 7
  have hlen : m.bodyBytes.length ≤ maxFrameBody := by decide +kernel
  exact ⟨hc, rfl, hlen, (encode_delivers m).2 .legacy hc rfl hlen⟩

end RemoteCall.Message
