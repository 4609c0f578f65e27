import RemoteCall.Proofs.Frame.RoundTrip

/-! A bad frame costs itself and no other.

A stream is made of segments, each a frame as it is written or such a frame with an id in its
header that nobody has given out (`Segment`). Where the length of a frame can be trusted the next
frame is found behind it, so the stream yields one item for each segment and is as ready behind
the last of them as it was in front of the first (`drain_segments`). Where it cannot be trusted
(`Breach`) there is one error more, and from then on the news that the stream is poisoned.
`feedAll_segments` says both for whatever chunks the bytes come in. -/
namespace RemoteCall

/-! ### Ids that nobody has given out -/

/-- The fields of a header that hold an id. -/
inductive IdField where
  | serializer
  | type
  | status

namespace IdField

/-- Whether nothing has the id. -/
def Unknown : IdField → UInt8 → Prop
  | serializer, id => ∀ s : Serializer, s.id ≠ id
  | type, id => ∀ t : MessageType, t.id ≠ id
  | status, id => ∀ s : Status, s.id ≠ id

/-- Whether the field is wide enough for the id: two of them share a byte in the packed layout. -/
def Holds : IdField → Layout → UInt8 → Prop
  | status, _, _ | _, .legacy, _ => True
  | _, .packed, id => id < 16

/-- What is wrong with a frame that has an unknown id in the field. -/
def fault : IdField → UInt8 → FrameError
  | serializer, id => .unknownSerializer id
  | type, id => .unknownMessageType id
  | status, id => .unknownStatus id

/-- The bytes of a frame with another id in the field, and everything else as it was. -/
def overwrite (l : Layout) (id : UInt8) (b : Bytes) : IdField → Bytes
  | serializer => match l with
    | .legacy => b.set 2 id
    | .packed => b.set 2 (packIds id (typeHalf (b.getD 2 0)))
  | type => match l with
    | .legacy => b.set 3 id
    | .packed => b.set 2 (packIds (serializerHalf (b.getD 2 0)) id)
  | status => b.set l.statusOffset id

end IdField

theorem Serializer.ofId?_of_unknown {id : UInt8} (h : ∀ s : Serializer, s.id ≠ id) :
    ofId? id = none := by
  rw [ofId?, if_neg (show id ≠ 0 from (h native).symm), if_neg (show id ≠ 1 from (h json).symm),
    if_neg (show id ≠ 2 from (h compact).symm)]

theorem MessageType.ofId?_of_unknown {id : UInt8} (h : ∀ t : MessageType, t.id ≠ id) :
    ofId? id = none := by
  rw [ofId?, if_neg (show id ≠ 0 from (h request).symm),
    if_neg (show id ≠ 1 from (h response).symm), if_neg (show id ≠ 2 from (h heartBeat).symm),
    if_neg (show id ≠ 3 from (h others).symm)]

theorem Status.ofId?_of_unknown {id : UInt8} (h : ∀ s : Status, s.id ≠ id) :
    ofId? id = none := by
  rw [ofId?, if_neg (show id ≠ 20 from (h ok).symm), if_neg (show id ≠ 40 from (h badRequest).symm),
    if_neg (show id ≠ 50 from (h badResponse).symm)]

theorem Layout.ofVersion?_of_unknown {version : UInt8} (h : ∀ l : Layout, l.version ≠ version) :
    ofVersion? version = none := by
  rw [ofVersion?, if_neg (show version ≠ 1 from (h legacy).symm),
    if_neg (show version ≠ 2 from (h packed).symm)]

/-! ### Frames with an unknown id -/

/-- Two ids that fit half a byte each come out of the byte as they went in. -/
theorem halves_packIds {serializer type : UInt8} (hs : serializer < 16) (ht : type < 16) :
    serializerHalf (packIds serializer type) = serializer ∧
      typeHalf (packIds serializer type) = type := by
  have hall : ∀ s t : Fin 16,
      serializerHalf (packIds (UInt8.ofNat s) (UInt8.ofNat t)) = UInt8.ofNat s ∧
        typeHalf (packIds (UInt8.ofNat s) (UInt8.ofNat t)) = UInt8.ofNat t := by decide +kernel
  simpa using hall ⟨serializer.toNat, hs⟩ ⟨type.toNat, ht⟩

theorem Serializer.id_lt (s : Serializer) : s.id < 16 := by cases s <;> decide

theorem MessageType.id_lt (t : MessageType) : t.id < 16 := by cases t <;> decide

namespace Header
variable {h : Header} {l : Layout} {field : IdField} {id : UInt8} {b : Bytes}

theorem readLayout_set {i : Nat} (hi : 2 ≤ i) (b : Bytes) (v : UInt8) :
    readLayout (b.set i v) = readLayout b := by
  obtain ⟨i, rfl⟩ := Nat.exists_eq_add_of_le' hi
  match b with
  | [] => rfl
  | [magic] => rfl
  | magic :: version :: rest => rfl

/-- An id stands between the first two bytes and the request id. -/
theorem overwrite_eq_set (l : Layout) (id : UInt8) (b : Bytes) (field : IdField) :
    ∃ i v, 2 ≤ i ∧ i < l.requestIdOffset ∧ field.overwrite l id b = b.set i v := by
  cases field <;> cases l <;> exact ⟨_, _, by decide, by decide, rfl⟩

/-- With another id, a frame has the layout, the request id and the length that it had. -/
theorem readLayout_overwrite (l : Layout) (id : UInt8) (b : Bytes) (field : IdField) :
    readLayout (field.overwrite l id b) = readLayout b := by
  obtain ⟨i, v, hi, -, heq⟩ := overwrite_eq_set l id b field
  rw [heq, readLayout_set hi]

theorem requestId_overwrite (l : Layout) (id : UInt8) (b : Bytes) (field : IdField) :
    l.requestId (field.overwrite l id b) = l.requestId b := by
  obtain ⟨i, v, -, hi, heq⟩ := overwrite_eq_set l id b field
  rw [heq, Layout.requestId, List.drop_set_of_lt hi, Layout.requestId]

theorem bodyLength_overwrite (l : Layout) (id : UInt8) (b : Bytes) (field : IdField) :
    l.bodyLength (field.overwrite l id b) = l.bodyLength b := by
  obtain ⟨i, v, -, hi, heq⟩ := overwrite_eq_set l id b field
  have hi : i < l.bodyLengthOffset := Nat.lt_of_lt_of_le hi (by cases l <;> decide)
  rw [heq, Layout.bodyLength, List.drop_set_of_lt hi, Layout.bodyLength]

theorem length_overwrite (l : Layout) (id : UInt8) (b : Bytes) (field : IdField) :
    (field.overwrite l id b).length = b.length := by
  obtain ⟨i, v, -, -, heq⟩ := overwrite_eq_set l id b field
  rw [heq, List.length_set]

theorem overwrite_append (l : Layout) (id : UInt8) (hb : headerSize ≤ b.length) (x : Bytes)
    (field : IdField) : field.overwrite l id (b ++ x) = field.overwrite l id b ++ x := by
  have h17 : 17 ≤ b.length := hb
  have hset (i : Nat) (hi : i < 17) (v : UInt8) : (b ++ x).set i v = b.set i v ++ x :=
    List.set_append_left _ _ (by omega)
  have hget : (b ++ x).getD 2 0 = b.getD 2 0 := by
    rw [List.getD_eq_getElem?_getD, List.getElem?_append_left (by omega),
      List.getD_eq_getElem?_getD]
  cases field with
  | serializer => cases l <;> simp only [IdField.overwrite, hget, hset 2 (by decide)]
  | type => cases l <;> simp only [IdField.overwrite, hget, hset 2 (by decide), hset 3 (by decide)]
  | status =>
    cases l <;> simp only [IdField.overwrite, Layout.statusOffset, hset 3 (by decide),
      hset 4 (by decide)]

/-- A header with an unknown id is read as that fault. -/
theorem fieldsIn_overwrite (holds : field.Holds l id) (unknown : field.Unknown id)
    (h : Header) (x : Bytes) :
    fieldsIn l (field.overwrite l id (h.bytesIn l ++ x)) = .error (field.fault id) := by
  cases field with
  | serializer =>
    have hid : l.serializerId (IdField.serializer.overwrite l id (h.bytesIn l ++ x)) = id := by
      cases l with
      | legacy => rfl
      | packed =>
        have htype := typeHalf_packIds h.serializer h.type
        exact (halves_packIds holds (htype ▸ h.type.id_lt)).1
    rw [fieldsIn, hid, Serializer.ofId?_of_unknown unknown]
    rfl
  | type =>
    have hids : l.serializerId (IdField.type.overwrite l id (h.bytesIn l ++ x)) = h.serializer.id ∧
        l.typeId (IdField.type.overwrite l id (h.bytesIn l ++ x)) = id := by
      cases l with
      | legacy => exact ⟨rfl, rfl⟩
      | packed =>
        have hserializer := serializerHalf_packIds h.serializer h.type
        have hboth := halves_packIds (hserializer ▸ h.serializer.id_lt) holds
        exact ⟨hboth.1.trans hserializer, hboth.2⟩
    rw [fieldsIn, hids.1, Serializer.ofId?_id, hids.2]
    simp only [MessageType.ofId?_of_unknown unknown, IdField.fault]
  | status =>
    have hids :
        l.serializerId (IdField.status.overwrite l id (h.bytesIn l ++ x)) = h.serializer.id ∧
        l.typeId (IdField.status.overwrite l id (h.bytesIn l ++ x)) = h.type.id ∧
        l.statusId (IdField.status.overwrite l id (h.bytesIn l ++ x)) = id := by
      cases l with
      | legacy => exact ⟨rfl, rfl, rfl⟩
      | packed =>
        exact ⟨serializerHalf_packIds h.serializer h.type,
          typeHalf_packIds h.serializer h.type, rfl⟩
    rw [fieldsIn, hids.1, Serializer.ofId?_id, hids.2.1, MessageType.ofId?_id, hids.2.2]
    simp only [Status.ofId?_of_unknown unknown, IdField.fault]

end Header

/-! ### Segments and breaches -/

namespace Layout
variable {front : Bytes}

/-- The request id is the eight bytes behind the ids. -/
theorem requestId_front (l : Layout) (h : front.length = l.requestIdOffset) (id : UInt64)
    (x : Bytes) : l.requestId (front ++ (Bytes.ofNatBE 8 id.toNat ++ x)) = id := by
  have hlt : id.toNat < Bytes.capacity 8 := id.toNat_lt
  rw [requestId, List.drop_left' h, List.take_left' (Bytes.length_ofNatBE 8 _),
    Bytes.toNatBE_ofNatBE, Nat.mod_eq_of_lt hlt, UInt64.ofNat_toNat]

/-- The length is the four bytes behind the request id. -/
theorem bodyLength_front (l : Layout) (h : front.length = l.bodyLengthOffset) (length : UInt32)
    (x : Bytes) : l.bodyLength (front ++ (Bytes.ofNatBE 4 length.toNat ++ x)) = length := by
  have hlt : length.toNat < Bytes.capacity 4 := length.toNat_lt
  rw [bodyLength, List.drop_left' h, List.take_left' (Bytes.length_ofNatBE 4 _),
    Bytes.toNatBE_ofNatBE, Nat.mod_eq_of_lt hlt, UInt32.ofNat_toNat]

end Layout

namespace FrameStream
variable {maxBody : Nat} {b : Bytes} {items : List FrameItem}

/-- A part of a stream whose end can be told, and what the stream yields for it. -/
inductive Segment (maxBody : Nat) : Bytes → FrameItem → Prop where
  /-- A frame as it is written, with the length of its body in its header. -/
  | whole {f : Frame} {l : Layout} {b : Bytes} : f.header.Canonical l → f.body.length ≤ maxBody →
      f.encode = .ok b → Segment maxBody b (.ok (.new f.header f.body))
  /-- Such a frame with an unknown id in its header. -/
  | garbled {f : Frame} {l : Layout} {b : Bytes} {field : IdField} {id : UInt8} :
      f.header.Canonical l → f.body.length ≤ maxBody → f.encode = .ok b → field.Holds l id →
      field.Unknown id →
      Segment maxBody (field.overwrite l id b) (.error ⟨some f.header.requestId, field.fault id⟩)

/-- Segments one behind another, and what the stream yields for them. -/
inductive Segments (maxBody : Nat) : Bytes → List FrameItem → Prop where
  | nil : Segments maxBody [] []
  | cons {b rest : Bytes} {item : FrameItem} {items : List FrameItem} : Segment maxBody b item →
      Segments maxBody rest items → Segments maxBody (b ++ rest) (item :: items)

/-- Bytes behind which no frame can be found any more, and the error that they are. -/
inductive Breach (maxBody : Nat) : Bytes → FrameFault → Prop where
  | magic {byte : UInt8} : byte ≠ magicByte → Breach maxBody [byte] ⟨none, .badMagic byte⟩
  | version {version : UInt8} : (∀ l : Layout, l.version ≠ version) →
      Breach maxBody [magicByte, version] ⟨none, .unsupportedVersion version⟩
  /-- A whole header, whatever its ids, that announces a body which is too long. -/
  | tooLong {l : Layout} {ids tail : Bytes} {requestId : UInt64} {length : UInt32} :
      2 + ids.length = l.requestIdOffset → l.bodyLengthOffset + 4 + tail.length = headerSize →
      maxBody < length.toNat →
      Breach maxBody
        (magicByte :: l.version :: (ids ++ Bytes.ofNatBE 8 requestId.toNat
          ++ Bytes.ofNatBE 4 length.toNat ++ tail))
        ⟨some requestId, .bodyTooLarge length.toNat maxBody⟩

/-- A whole header that is read as a fault takes the body that it announces with it. -/
theorem scan_fault {head body : Bytes} {l : Layout} {e : FrameError}
    (hlength : head.length = headerSize) (hlayout : Header.readLayout head = .ok l)
    (hbody : (l.bodyLength head).toNat = body.length) (hmax : body.length ≤ maxBody)
    (hfault : Header.fieldsIn l (head ++ body) = .error e) (x : Bytes) :
    scan maxBody (head ++ body ++ x) =
      .item (.error ⟨some (l.requestId head), e⟩) (head ++ body).length := by
  have hlayout' (y : Bytes) : Header.readLayout (head ++ y) = .ok l := by
    rw [Header.readLayout_append y (by simp [hlayout]), hlayout]
  have hfront : headerSize ≤ head.length := Nat.le_of_eq hlength.symm
  have hdecode : Frame.decode (head ++ body) = .error e := by
    have : ¬ (head ++ body).length < headerSize := by simp [hlength]
    simp only [Frame.decode, Header.read, hlayout', if_neg this, hfault]
  rw [List.append_assoc, scan, hlayout']
  simp only [l.bodyLength_append hfront, l.requestId_append hfront, hbody]
  rw [if_neg (by simp [hlength]), if_neg (Nat.not_lt.2 hmax)]
  have htake : (head ++ (body ++ x)).take (headerSize + body.length) = head ++ body := by
    rw [← List.append_assoc]
    exact List.take_left' (by simp [hlength])
  simp only [scanFrame, l.bodyLength_append hfront, l.requestId_append hfront, hbody, htake,
    hdecode]
  rw [if_neg (by simp [hlength])]
  simp [hlength]

/-- A frame is written as a header that announces the body, and the body. -/
theorem encode_bytes {f : Frame} {l : Layout} (hc : f.header.Canonical l) (hb : f.encode = .ok b) :
    b = (Frame.new f.header f.body).header.bytesIn l ++ f.body ∧
      (Frame.new f.header f.body).header.bodyLength.toNat = f.body.length := by
  have hwhole := Frame.whole_new hc f.body
  obtain ⟨hlen, l', hc', hbytes⟩ := hwhole.bytes hb
  have hversion : l'.version = l.version := hc'.version.symm.trans hc.version
  obtain rfl : l' = l := by
    have h := Layout.ofVersion?_version l'
    rw [hversion, Layout.ofVersion?_version] at h
    exact (Option.some.inj h).symm
  exact ⟨hbytes, hwhole.bodyLength hlen⟩

/-- **A segment yields its item and is taken as a whole**, whatever follows it. -/
theorem scan_segment {item : FrameItem} (h : Segment maxBody b item) (x : Bytes) :
    scan maxBody (b ++ x) = .item item b.length := by
  cases h with
  | whole hc hmax hb =>
    have hscan := scan_encode maxBody (Frame.whole_new hc _) hb x
    exact hscan.trans (if_neg (Nat.not_lt.2 hmax))
  | @garbled f l b field id hc hmax hb holds unknown =>
    obtain ⟨rfl, hbody⟩ := encode_bytes hc hb
    have hc' : (Frame.new f.header f.body).header.Canonical l := ⟨hc.magic, hc.version, hc.reserved⟩
    have hid : (Frame.new f.header f.body).header.requestId = f.header.requestId := rfl
    generalize (Frame.new f.header f.body).header = header at hbody hc' hid
    have hlength := header.length_bytesIn l
    have hnone : header.bytesIn l ++ [] = header.bytesIn l := List.append_nil _
    have hfault := Header.fieldsIn_overwrite holds unknown header f.body
    rw [Header.overwrite_append l id (Nat.le_of_eq hlength.symm)] at hfault ⊢
    have hscan := scan_fault
      (by rw [Header.length_overwrite, hlength])
      (by rw [Header.readLayout_overwrite, ← hnone, Header.readLayout_bytesIn hc'])
      (by rw [Header.bodyLength_overwrite, ← hnone, l.bodyLength_bytesIn, hbody]) hmax hfault x
    rwa [Header.requestId_overwrite, ← hnone, l.requestId_bytesIn, hnone, hid] at hscan

/-- **Segments yield their items one by one**, and what follows them is as if they had not
been. -/
theorem drain_segments (h : Segments maxBody b items) (x : Bytes) :
    drain maxBody (b ++ x) =
      let rest := drain maxBody x
      ⟨items ++ rest.items, rest.kept, rest.poisoned⟩ := by
  induction h with
  | nil => rfl
  | cons hsegment _ ih =>
    rw [List.append_assoc, drain_item (scan_segment hsegment _), List.drop_left, ih]
    rfl

/-- **A breach is one error and the end**, whatever follows it. -/
theorem scan_breach {fault : FrameFault} (h : Breach maxBody b fault) (x : Bytes) :
    scan maxBody (b ++ x) = .poison fault := by
  cases h with
  | @magic byte hne =>
    have hlayout : Header.readLayout ([byte] ++ x) = .error (.badMagic byte) := if_pos hne
    rw [scan, hlayout]
  | @version version hunknown =>
    have hlayout : Header.readLayout ([magicByte, version] ++ x) =
        .error (.unsupportedVersion version) := by
      show Header.readLayout (magicByte :: version :: x) = _
      rw [Header.readLayout, if_neg (not_not_intro rfl)]
      simp only [Layout.ofVersion?_of_unknown hunknown]
    rw [scan, hlayout]
  | @tooLong l ids tail requestId length hids htail hmax =>
    let front := magicByte :: l.version :: ids
    have hoffset : l.bodyLengthOffset = l.requestIdOffset + 8 := by cases l <;> rfl
    have hfront : front.length = l.requestIdOffset := by
      rw [List.length_cons, List.length_cons]
      omega
    have hlayout (y : Bytes) : Header.readLayout (front ++ y) = .ok l := by
      show Header.readLayout (magicByte :: l.version :: (ids ++ y)) = _
      rw [Header.readLayout, if_neg (not_not_intro rfl)]
      simp only [Layout.ofVersion?_version]
    let rest := Bytes.ofNatBE 4 length.toNat ++ (tail ++ x)
    have hbytes : magicByte :: l.version :: (ids ++ Bytes.ofNatBE 8 requestId.toNat
        ++ Bytes.ofNatBE 4 length.toNat ++ tail) ++ x =
        front ++ (Bytes.ofNatBE 8 requestId.toNat ++ rest) := by
      simp [front, rest]
    have hrequestId := l.requestId_front hfront requestId rest
    have hlength : l.bodyLength (front ++ (Bytes.ofNatBE 8 requestId.toNat ++ rest)) = length := by
      rw [← List.append_assoc]
      refine l.bodyLength_front ?_ length (tail ++ x)
      rw [List.length_append, hfront, Bytes.length_ofNatBE, hoffset]
    have hwhole : ¬ (front ++ (Bytes.ofNatBE 8 requestId.toNat ++ rest)).length < headerSize := by
      simp only [List.length_append, hfront, Bytes.length_ofNatBE, rest]
      omega
    rw [hbytes, scan, hlayout]
    simp only [hrequestId, hlength, if_neg hwhole, if_pos hmax]

/-! ### Chunk by chunk -/

/-- What every chunk behind a poisoning brings. -/
def poisonedNews : List FrameItem := [.error ⟨none, .streamPoisoned⟩]

/-- A poisoned stream stays as it is and has nothing else to say. -/
theorem feedAll_poisoned {s : FrameStream} (h : s.poisoned = true) (chunks : List Bytes) :
    s.feedAll chunks = (chunks.map fun _ => poisonedNews, s) := by
  induction chunks with
  | nil => rfl
  | cons chunk rest ih =>
    have hfeed : s.feed chunk = (poisonedNews, s) := if_pos h
    simp only [feedAll, hfeed, ih, List.map_cons]

theorem findings_poisoned {s : FrameStream} (h : s.poisoned = true) (chunks : List Bytes) :
    s.findings chunks = [] := by
  induction chunks with
  | nil => rfl
  | cons chunk rest ih =>
    have hfeed : s.feed chunk = (poisonedNews, s) := if_pos h
    rw [findings, if_pos h, hfeed, ih, List.nil_append]

/-- The items of all chunks up to a poisoning are the findings, and every chunk behind it brings
the news of it. -/
theorem feedAll_findings {s : FrameStream} (h : s.poisoned = false) (chunks : List Bytes) :
    ∃ early late, chunks = early ++ late ∧ (s.feedAll early).1.flatten = s.findings chunks ∧
      (s.feedAll chunks).1 = (s.feedAll early).1 ++ (late.map fun _ => poisonedNews) ∧
      ((s.feedAll chunks).2.poisoned = false → late = []) := by
  induction chunks generalizing s with
  | nil => exact ⟨[], [], rfl, rfl, rfl, fun _ => rfl⟩
  | cons chunk rest ih =>
    cases hp : (s.feed chunk).2.poisoned with
    | false =>
      obtain ⟨early, late, rfl, hfound, hitems, hend⟩ := ih hp
      refine ⟨chunk :: early, late, rfl, ?_, ?_, hend⟩
      · simp only [feedAll, findings, h, List.flatten_cons, hfound, Bool.false_eq_true, if_false]
      · simp only [feedAll, List.cons_append] at hitems ⊢
        rw [hitems]
    | true =>
      refine ⟨[chunk], rest, rfl, ?_, ?_, ?_⟩
      · simp [feedAll, findings, h, findings_poisoned hp]
      · simp only [feedAll, feedAll_poisoned hp, List.singleton_append]
      · simp only [feedAll, feedAll_poisoned hp, hp]
        rintro ⟨⟩

/-- **One bad frame costs no other.** Segments in any chunks yield their items, one each and in
their order, and leave a stream that holds nothing back. If a breach follows them, it yields one
error more with the chunk that completes it; whatever follows, every later chunk brings nothing
but the news that the stream is poisoned. -/
theorem feedAll_segments (h : Segments maxBody b items) :
    (∀ chunks : List Bytes, chunks.flatten = b →
      ((new maxBody).feedAll chunks).1.flatten = items ∧
        ((new maxBody).feedAll chunks).2 = ⟨maxBody, [], false⟩) ∧
    ∀ (breach : Bytes) (fault : FrameFault), Breach maxBody breach fault →
      ∀ (rest : Bytes) (chunks : List Bytes), chunks.flatten = b ++ (breach ++ rest) →
        ((new maxBody).feedAll chunks).2 = ⟨maxBody, [], true⟩ ∧
          ∃ early late, chunks = early ++ late ∧
            ((new maxBody).feedAll early).1.flatten = items ++ [.error fault] ∧
            ((new maxBody).feedAll chunks).1 =
              ((new maxBody).feedAll early).1 ++ (late.map fun _ => poisonedNews) := by
  have hend (chunks : List Bytes) :
      ((new maxBody).feedAll chunks).2 = after maxBody chunks.flatten := by
    rw [← after_nil, feedAll_after, List.nil_append]
  refine ⟨fun chunks hchunks => ?_, fun breach fault hbreach rest chunks hchunks => ?_⟩
  · have hdrain := drain_segments h []
    rw [List.append_nil, drain_wait (show scan maxBody [] = .wait from rfl), ← hchunks] at hdrain
    obtain ⟨early, late, hsplit, hfound, -, hlate⟩ := feedAll_findings (s := new maxBody) rfl chunks
    have hsound : ((new maxBody).feedAll chunks).2 = ⟨maxBody, [], false⟩ := by
      rw [hend, after, hdrain]
    obtain rfl := hlate (by rw [hsound])
    rw [List.append_nil] at hsplit
    refine ⟨?_, hsound⟩
    rw [hsplit, hfound, findings_new, hdrain]
    exact List.append_nil _
  · have hdrain := drain_segments h (breach ++ rest)
    rw [drain_poison (scan_breach hbreach rest), ← hchunks] at hdrain
    obtain ⟨early, late, hsplit, hfound, hitems, -⟩ :=
      feedAll_findings (s := new maxBody) rfl chunks
    refine ⟨by rw [hend, after, hdrain], early, late, hsplit, ?_, hitems⟩
    rw [hfound, findings_new, hdrain]

/-- A frame, one with an unknown status in the other layout, and an unsupported version. -/
theorem feedAll_segments_unknown_status :
    let good : Frame := ⟨.new .packed .json .request .ok 7, [5]⟩
    let stream : Bytes := [1, 2, 16, 20, 0, 0, 0, 0, 0, 0, 0, 7, 0, 0, 0, 1, 0, 5]
      ++ ([1, 1, 0, 1, 99, 0, 0, 0, 0, 0, 0, 0, 8, 0, 0, 0, 0] ++ [])
    let items : List FrameItem :=
      [.ok (.new good.header good.body), .error ⟨some 8, .unknownStatus 99⟩]
    Segments 16 stream items ∧
      Breach 16 [1, 9] ⟨none, .unsupportedVersion 9⟩ ∧
      ∀ chunks : List Bytes, chunks.flatten = stream ++ ([1, 9] ++ [1, 2, 3]) →
        ((new 16).feedAll chunks).2 = ⟨16, [], true⟩ ∧
          ∃ early late, chunks = early ++ late ∧
            ((new 16).feedAll early).1.flatten =
              items ++ [.error ⟨none, .unsupportedVersion 9⟩] ∧
            ((new 16).feedAll chunks).1 =
              ((new 16).feedAll early).1 ++ (late.map fun _ => poisonedNews) := by
  intro good stream items
  let bad : Frame := ⟨.new .legacy .native .response .ok 8, []⟩
  have hgood : good.encode = .ok [1, 2, 16, 20, 0, 0, 0, 0, 0, 0, 0, 7, 0, 0, 0, 1, 0, 5] := by
    with_unfolding_all rfl
  have hbad : bad.encode = .ok [1, 1, 0, 1, 20, 0, 0, 0, 0, 0, 0, 0, 8, 0, 0, 0, 0] := by
    with_unfolding_all rfl
  have hholds : IdField.status.Holds .legacy 99 := trivial
  have hunknown : IdField.status.Unknown 99 := fun s => by cases s <;> decide
  have hstream : Segments 16 stream items :=
    .cons (.whole (Header.canonical_new .packed .json .request .ok 7) (by decide) hgood)
      (.cons (.garbled (Header.canonical_new .legacy .native .response .ok 8) (by decide) hbad
        hholds hunknown) .nil)
  have hbreach : Breach 16 [1, 9] ⟨none, .unsupportedVersion 9⟩ :=
    .version fun l => by cases l <;> decide
  exact ⟨hstream, hbreach, (feedAll_segments hstream).2 _ _ hbreach _⟩

end FrameStream
end RemoteCall
