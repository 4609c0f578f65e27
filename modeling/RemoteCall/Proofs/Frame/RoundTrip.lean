import RemoteCall.Proofs.Frame.Chunking

/-! A frame that is written is read back.

A header says by its version in which layout it is written. If it is `Canonical`, nothing of
it is lost in that layout: the fields of the 17 bytes, with anything behind them, are the
fields that were written (`fieldsIn_bytesIn`). A stream then passes frames one by one
(`scan_encode`), so the frames that come out of any part of a stream of written frames are
among those that went in (`mem_of_drain`). -/
namespace RemoteCall

/-! ### Headers -/

namespace Layout
variable (h : Header) (x : Bytes)

theorem requestId_bytesIn (l : Layout) : l.requestId (h.bytesIn l ++ x) = h.requestId := by
  have hfield : ((h.bytesIn l ++ x).drop l.requestIdOffset).take 8 =
      Bytes.ofNatBE 8 h.requestId.toNat := by cases l <;> rfl
  rw [requestId, hfield, Bytes.toNatBE_ofNatBE]
  have hlt : h.requestId.toNat < Bytes.capacity 8 := h.requestId.toNat_lt
  rw [Nat.mod_eq_of_lt hlt, UInt64.ofNat_toNat]

theorem bodyLength_bytesIn (l : Layout) : l.bodyLength (h.bytesIn l ++ x) = h.bodyLength := by
  have hfield : ((h.bytesIn l ++ x).drop l.bodyLengthOffset).take 4 =
      Bytes.ofNatBE 4 h.bodyLength.toNat := by cases l <;> rfl
  rw [bodyLength, hfield, Bytes.toNatBE_ofNatBE]
  have hlt : h.bodyLength.toNat < Bytes.capacity 4 := h.bodyLength.toNat_lt
  rw [Nat.mod_eq_of_lt hlt, UInt32.ofNat_toNat]

theorem serializerId_bytesIn (l : Layout) :
    l.serializerId (h.bytesIn l ++ x) = h.serializer.id := by
  cases l with
  | legacy => rfl
  | packed => exact serializerHalf_packIds h.serializer h.type

theorem typeId_bytesIn (l : Layout) : l.typeId (h.bytesIn l ++ x) = h.type.id := by
  cases l with
  | legacy => rfl
  | packed => exact typeHalf_packIds h.serializer h.type

theorem statusId_bytesIn (l : Layout) : l.statusId (h.bytesIn l ++ x) = h.status.id := by
  cases l <;> rfl

end Layout

namespace Header

/-- Whether a header has the magic byte, a layout, and nothing that its layout leaves out. -/
structure Canonical (h : Header) (l : Layout) : Prop where
  magic : h.magic = magicByte
  version : h.version = l.version
  reserved : l = .legacy → h.reserved = 0

variable {h : Header} {l : Layout}

theorem Canonical.layout? (hc : h.Canonical l) : h.layout? = some l := by
  rw [Header.layout?, hc.version, Layout.ofVersion?_version]

theorem canonical_new (layout : Layout) (serializer : Serializer) (type : MessageType)
    (status : Status) (id : UInt64) :
    (Header.new layout serializer type status id).Canonical layout :=
  ⟨rfl, rfl, fun _ => rfl⟩

theorem readLayout_bytesIn (hc : h.Canonical l) (x : Bytes) :
    readLayout (h.bytesIn l ++ x) = .ok l := by
  have hhead : ∃ rest, h.bytesIn l ++ x = h.magic :: h.version :: rest := by
    cases l <;> exact ⟨_, rfl⟩
  obtain ⟨rest, hrest⟩ := hhead
  rw [hrest, readLayout, if_neg (not_not_intro hc.magic), hc.version]
  simp only [Layout.ofVersion?_version]

/-- The fields that were written are the fields that are read. -/
theorem fieldsIn_bytesIn (hc : h.Canonical l) (x : Bytes) :
    fieldsIn l (h.bytesIn l ++ x) = .ok h := by
  have hreserved : l.reserved (h.bytesIn l ++ x) = h.reserved := by
    cases l with
    | legacy => exact (hc.reserved rfl).symm
    | packed => rfl
  unfold fieldsIn
  rw [l.serializerId_bytesIn, Serializer.ofId?_id, l.typeId_bytesIn, MessageType.ofId?_id,
    l.statusId_bytesIn, Status.ofId?_id, l.requestId_bytesIn, l.bodyLength_bytesIn, hreserved,
    ← hc.magic, ← hc.version]

/-- What is read is canonical. -/
theorem canonical_of_fieldsIn {b : Bytes} (hb : fieldsIn l b = .ok h) : h.Canonical l := by
  unfold fieldsIn at hb
  split at hb
  · cases hb
  · split at hb
    · cases hb
    · split at hb
      · cases hb
      · obtain rfl := Except.ok.inj hb
        refine ⟨rfl, rfl, ?_⟩
        rintro rfl
        rfl

theorem canonical_of_read {b : Bytes} (hb : read b = .ok h) :
    ∃ l, h.Canonical l := by
  unfold read at hb
  split at hb
  · cases hb
  · next l _ =>
    split at hb
    · cases hb
    · exact ⟨l, canonical_of_fieldsIn hb⟩

theorem read_bytesIn (hc : h.Canonical l) (x : Bytes) : read (h.bytesIn l ++ x) = .ok h := by
  have hlen : ¬ (h.bytesIn l ++ x).length < headerSize := by simp
  rw [read, readLayout_bytesIn hc]
  simp only [if_neg hlen]
  exact fieldsIn_bytesIn hc x

end Header

/-! ### Frames -/

namespace Frame

/-- Whether a frame's header is one that is read as it is written, for its body. -/
structure Whole (f : Frame) : Prop where
  canonical : ∃ l, f.header.Canonical l
  announced : f.header.bodyLength = UInt32.ofNat f.body.length

variable {f g : Frame} {b : Bytes}

theorem whole_new {h : Header} {l : Layout} (hc : h.Canonical l) (body : Bytes) :
    (Frame.new h body).Whole := ⟨⟨l, hc.magic, hc.version, hc.reserved⟩, rfl⟩

/-- A whole frame that is written has a body that its header can announce, and is written as
its header with the body behind it. -/
theorem Whole.bytes (hf : f.Whole) (hb : f.encode = .ok b) :
    f.body.length ≤ maxFrameBody ∧ ∃ l, f.header.Canonical l ∧ b = f.header.bytesIn l ++ f.body := by
  obtain ⟨l, hc⟩ := hf.canonical
  have hsame : Frame.new f.header f.body = f := by
    obtain ⟨header, body⟩ := f
    exact congrArg (Frame.mk · body) (by rw [← hf.announced])
  unfold encode Header.write at hb
  rw [hsame, hc.layout?] at hb
  split at hb
  · cases hb
  · next hlen =>
    exact ⟨by omega, l, hc, (Except.ok.inj hb).symm⟩

theorem Whole.bodyLength (hf : f.Whole) (hlen : f.body.length ≤ maxFrameBody) :
    f.header.bodyLength.toNat = f.body.length := by
  rw [hf.announced]
  exact UInt32.toNat_ofNat_of_lt (Nat.lt_of_le_of_lt hlen (by decide))

/-- **A frame that is written is read back**, whatever follows it. -/
theorem Whole.decode_append (hf : f.Whole) (hb : f.encode = .ok b) (x : Bytes) :
    Frame.decode (b ++ x) = .ok f := by
  obtain ⟨hlen, l, hc, rfl⟩ := hf.bytes hb
  have hbody := hf.bodyLength hlen
  have htotal : ¬ (f.header.bytesIn l ++ f.body ++ x).length < headerSize + f.body.length := by
    simp
  have hdrop : ((f.header.bytesIn l ++ f.body ++ x).drop headerSize).take f.body.length =
      f.body := by
    rw [List.append_assoc, List.drop_left' (Header.length_bytesIn _ _), List.take_left]
  unfold Frame.decode
  rw [List.append_assoc, Header.read_bytesIn hc, ← List.append_assoc]
  simp only [hbody, if_neg htotal, hdrop]

theorem canonical_of_decode (hb : Frame.decode b = .ok f) :
    ∃ l, f.header.Canonical l := by
  unfold Frame.decode at hb
  split at hb
  · cases hb
  · next header hheader =>
    dsimp only at hb
    split at hb
    · cases hb
    · cases hb
      exact Header.canonical_of_read hheader

/-- Different frames are written differently. -/
theorem Whole.encode_inj (hf : f.Whole) (hg : g.Whole) (hfb : f.encode = .ok b)
    (hgb : g.encode = .ok b) : f = g := by
  have hread := hf.decode_append hfb []
  rw [hg.decode_append hgb []] at hread
  exact (Except.ok.inj hread).symm

end Frame

/-! ### Streams of frames -/

namespace FrameStream
variable {maxBody : Nat} {f : Frame} {b : Bytes}

/-- A stream passes a frame as it was written, unless its body is too long for the stream. -/
theorem scan_encode (maxBody : Nat) (hf : f.Whole) (hb : f.encode = .ok b) (x : Bytes) :
    scan maxBody (b ++ x) =
      if maxBody < f.body.length then
        .poison ⟨some f.header.requestId, .bodyTooLarge f.body.length maxBody⟩
      else .item (.ok f) b.length := by
  have hdecode : Frame.decode b = .ok f := by simpa using hf.decode_append hb []
  obtain ⟨hlen, l, hc, rfl⟩ := hf.bytes hb
  have hbody := hf.bodyLength hlen
  have hheader : ¬ (f.header.bytesIn l ++ (f.body ++ x)).length < headerSize := by simp
  have htotal : ¬ (f.header.bytesIn l ++ (f.body ++ x)).length < headerSize + f.body.length := by
    simp
  have htake : (f.header.bytesIn l ++ (f.body ++ x)).take (headerSize + f.body.length) =
      f.header.bytesIn l ++ f.body := by
    rw [← List.append_assoc]
    exact List.take_left' (by simp)
  rw [List.append_assoc]
  unfold scan
  rw [Header.readLayout_bytesIn hc]
  simp only [if_neg hheader, l.bodyLength_bytesIn, l.requestId_bytesIn, hbody]
  split
  · rfl
  · simp only [scanFrame, l.bodyLength_bytesIn, hbody, if_neg htotal, htake, hdecode]
    simp

theorem decode_of_scan {n : Nat} (h : scan maxBody b = .item (.ok f) n) :
    Frame.decode (b.take n) = .ok f := by
  unfold scan at h
  split at h
  · cases h
  · cases h
  · split at h
    · cases h
    · split at h
      · cases h
      · simp only [scanFrame] at h
        split at h
        · cases h
        · split at h
          · next hdecode => cases h; exact hdecode
          · cases h

/-- Whatever comes in, a frame that a stream passes has a header that is read as it is written. -/
theorem canonical_of_mem_drain (h : .ok f ∈ (drain maxBody b).items) :
    ∃ l, f.header.Canonical l := by
  fun_induction drain maxBody b with
  | case1 b hscan => cases h
  | case2 b fault hscan => cases List.mem_singleton.1 h
  | case3 b r n hscan rest ih =>
    obtain h | h := List.mem_cons.1 h
    · subst h
      exact Frame.canonical_of_decode (decode_of_scan hscan)
    · exact ih h

/-- The frames that a stream of written frames passes are among those that were written. -/
theorem mem_of_drain_flatten {bs : List Bytes}
    (hbs : ∀ b ∈ bs, ∃ g : Frame, g.Whole ∧ g.encode = .ok b)
    (hf : .ok f ∈ (drain maxBody bs.flatten).items) : f.Whole ∧ ∃ b ∈ bs, f.encode = .ok b := by
  induction bs with
  | nil =>
    rw [List.flatten_nil, drain_wait (show scan maxBody [] = .wait from rfl)] at hf
    cases hf
  | cons b rest ih =>
    obtain ⟨g, hg, hgb⟩ := hbs b List.mem_cons_self
    have hscan := scan_encode maxBody hg hgb rest.flatten
    rw [List.flatten_cons] at hf
    split at hscan
    · rw [drain_poison hscan] at hf
      cases hf with
      | tail _ hf => cases hf
    · rw [drain_item hscan, List.drop_left] at hf
      obtain hf | hf := List.mem_cons.1 hf
      · obtain rfl := Except.ok.inj hf
        exact ⟨hg, b, List.mem_cons_self, hgb⟩
      · obtain ⟨hwhole, d, hd, hfd⟩ := ih (fun d hd => hbs d (List.mem_cons_of_mem _ hd)) hf
        exact ⟨hwhole, d, List.mem_cons_of_mem _ hd, hfd⟩

/-- What some bytes hold is held by more bytes. -/
theorem mem_drain_append {item : FrameItem} (hf : item ∈ (drain maxBody b).items) (x : Bytes) :
    item ∈ (drain maxBody (b ++ x)).items := by
  rw [drain_append]
  unfold Rest.andThen
  split
  · exact hf
  · exact List.mem_append_left _ hf

/-- A frame that a chunk completes is held by the bytes with the chunk. -/
theorem mem_drain_of_feed {chunk : Bytes} (hf : .ok f ∈ ((after maxBody b).feed chunk).1) :
    .ok f ∈ (drain maxBody (b ++ chunk)).items := by
  rw [items_append]
  cases hp : (after maxBody b).poisoned with
  | true =>
    rw [feed, if_pos hp] at hf
    cases hf with
    | tail _ hf => cases hf
  | false => exact List.mem_append_right _ hf

/-- **The frames that a chunk of a stream of written frames completes are among those that
were written.** -/
theorem mem_of_feed {bs : List Bytes} {heard : Nat} {chunk : Bytes}
    (hbs : ∀ b ∈ bs, ∃ g : Frame, g.Whole ∧ g.encode = .ok b)
    (hchunk : bs.flatten.take heard ++ chunk <+: bs.flatten)
    (hf : .ok f ∈ ((after maxBody (bs.flatten.take heard)).feed chunk).1) :
    f.Whole ∧ ∃ b ∈ bs, f.encode = .ok b := by
  obtain ⟨x, hx⟩ := hchunk
  have hmore := mem_drain_append (mem_drain_of_feed hf) x
  rw [hx] at hmore
  exact mem_of_drain_flatten hbs hmore

end FrameStream
end RemoteCall
