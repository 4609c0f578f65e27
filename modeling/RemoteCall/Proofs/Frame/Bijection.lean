import Mathlib.Algebra.Group.Nat.Defs
import RemoteCall.Proofs.Frame.RoundTrip

/-! Every accepted byte string is the one way to write its frame.

`RoundTrip` says that what is written is read back. The reverse holds as well, for no byte of a
header is ignored: each belongs to a field of the layout, an id comes from one number only, and an
integer of fixed width has one spelling (`bytesIn_of_fieldsIn`). So a frame that was read is
written as the bytes it was read from, and `encode_inverts` puts both directions together. -/
namespace RemoteCall

/-! ### Fields -/

theorem Serializer.id_of_ofId? {b : UInt8} {s : Serializer} (h : ofId? b = some s) : s.id = b := by
  unfold ofId? at h
  split at h
  · next hb => obtain rfl := Option.some.inj h; exact hb.symm
  · split at h
    · next hb => obtain rfl := Option.some.inj h; exact hb.symm
    · split at h
      · next hb => obtain rfl := Option.some.inj h; exact hb.symm
      · cases h

theorem MessageType.id_of_ofId? {b : UInt8} {t : MessageType} (h : ofId? b = some t) :
    t.id = b := by
  unfold ofId? at h
  split at h
  · next hb => obtain rfl := Option.some.inj h; exact hb.symm
  · split at h
    · next hb => obtain rfl := Option.some.inj h; exact hb.symm
    · split at h
      · next hb => obtain rfl := Option.some.inj h; exact hb.symm
      · split at h
        · next hb => obtain rfl := Option.some.inj h; exact hb.symm
        · cases h

theorem Status.id_of_ofId? {b : UInt8} {s : Status} (h : ofId? b = some s) : s.id = b := by
  unfold ofId? at h
  split at h
  · next hb => obtain rfl := Option.some.inj h; exact hb.symm
  · split at h
    · next hb => obtain rfl := Option.some.inj h; exact hb.symm
    · split at h
      · next hb => obtain rfl := Option.some.inj h; exact hb.symm
      · cases h

theorem Layout.version_of_ofVersion? {b : UInt8} {l : Layout} (h : ofVersion? b = some l) :
    l.version = b := by
  unfold ofVersion? at h
  split at h
  · next hb => obtain rfl := Option.some.inj h; exact hb.symm
  · split at h
    · next hb => obtain rfl := Option.some.inj h; exact hb.symm
    · cases h

/-- A byte is its two halves. -/
theorem packIds_halves (b : UInt8) : packIds (serializerHalf b) (typeHalf b) = b := by
  have hall : ∀ n : Fin 256, packIds (serializerHalf (UInt8.ofNat n)) (typeHalf (UInt8.ofNat n)) =
      UInt8.ofNat n := by decide +kernel
  simpa using hall ⟨b.toNat, b.toNat_lt⟩

namespace Bytes

/-- Only as much of a number is written as the width can hold. -/
theorem ofNatBE_add_mul (w k n : Nat) : ofNatBE w (k * capacity w + n) = ofNatBE w n := by
  induction w generalizing k with
  | zero => rfl
  | succ w ih =>
    have hpos : 0 < capacity w := Nat.pow_pos (by decide)
    have hsplit : k * capacity (w + 1) + n = k * 256 * capacity w + n := by
      rw [capacity_succ, Nat.mul_comm (capacity w), Nat.mul_assoc]
    have hfirst : UInt8.ofNat (k * 256 + n / capacity w) = UInt8.ofNat (n / capacity w) :=
      UInt8.toNat_inj.1 (by simp)
    rw [hsplit, ofNatBE, ih, Nat.add_comm, Nat.add_mul_div_right _ _ hpos, Nat.add_comm, hfirst,
      ofNatBE]

/-- Bytes are the one way to write their number in so many bytes. -/
theorem ofNatBE_toNatBE (b : Bytes) : ofNatBE b.length (toNatBE b) = b := by
  induction b with
  | nil => rfl
  | cons x rest ih =>
    have hpos : 0 < capacity rest.length := Nat.pow_pos (by decide)
    have hfirst : (x.toNat * capacity rest.length + toNatBE rest) / capacity rest.length =
        x.toNat := by
      rw [Nat.add_comm, Nat.add_mul_div_right _ _ hpos, Nat.div_eq_of_lt (toNatBE_lt rest),
        Nat.zero_add]
    rw [List.length_cons, ofNatBE, toNatBE, hfirst, UInt8.ofNat_toNat, ofNatBE_add_mul, ih]

/-- A field of some width holds a number of this width, which is written as the field. -/
theorem ofNatBE_field {b : Bytes} {start width : Nat} (h : start + width ≤ b.length) :
    toNatBE ((b.drop start).take width) < capacity width ∧
      ofNatBE width (toNatBE ((b.drop start).take width)) = (b.drop start).take width := by
  have hlen : ((b.drop start).take width).length = width := by
    rw [List.length_take, List.length_drop]
    omega
  have hlt := toNatBE_lt ((b.drop start).take width)
  have hwritten := ofNatBE_toNatBE ((b.drop start).take width)
  rw [hlen] at hlt hwritten
  exact ⟨hlt, hwritten⟩

end Bytes

/-! ### Headers -/

namespace Header
variable {h : Header} {l : Layout} {b : Bytes}

/-- What the first two bytes are if they announce a layout. -/
theorem first_of_readLayout (hb : readLayout b = .ok l) :
    ∃ rest, b = magicByte :: l.version :: rest := by
  match b with
  | [] => cases hb
  | [magic] =>
    rw [readLayout] at hb
    split at hb <;> cases hb
  | magic :: version :: rest =>
    rw [readLayout] at hb
    split at hb
    · cases hb
    · next hmagic =>
      split at hb
      · next l' hl =>
        obtain rfl := Except.ok.inj hb
        rw [Layout.version_of_ofVersion? hl, Decidable.of_not_not hmagic]
        exact ⟨rest, rfl⟩
      · cases hb

theorem requestId_written (l : Layout) (hlen : headerSize ≤ b.length) :
    Bytes.ofNatBE 8 (l.requestId b).toNat = (b.drop l.requestIdOffset).take 8 := by
  have hend : l.requestIdOffset + 8 ≤ headerSize := by cases l <;> decide
  obtain ⟨hlt, hwritten⟩ := Bytes.ofNatBE_field (Nat.le_trans hend hlen)
  rw [Layout.requestId, UInt64.toNat_ofNat_of_lt' hlt, hwritten]

theorem bodyLength_written (l : Layout) (hlen : headerSize ≤ b.length) :
    Bytes.ofNatBE 4 (l.bodyLength b).toNat = (b.drop l.bodyLengthOffset).take 4 := by
  have hend : l.bodyLengthOffset + 4 ≤ headerSize := by cases l <;> decide
  obtain ⟨hlt, hwritten⟩ := Bytes.ofNatBE_field (Nat.le_trans hend hlen)
  rw [Layout.bodyLength, UInt32.toNat_ofNat_of_lt' hlt, hwritten]

theorem take_succ_getD {n : Nat} (h : n < b.length) : b.take (n + 1) = b.take n ++ [b.getD n 0] := by
  rw [List.take_succ_eq_append_getElem h, List.getD_eq_getElem?_getD, List.getElem?_eq_getElem h,
    Option.getD_some]

/-- **A header is written as the bytes it was read from.** -/
theorem bytesIn_of_fieldsIn (hl : readLayout b = .ok l) (hlen : headerSize ≤ b.length)
    (hb : fieldsIn l b = .ok h) : h.bytesIn l = b.take headerSize := by
  have hfront : b.take 2 = [magicByte, l.version] := by
    obtain ⟨rest, rfl⟩ := first_of_readLayout hl
    rfl
  have hbytes : 17 ≤ b.length := hlen
  unfold fieldsIn at hb
  split at hb
  · cases hb
  · next serializer hserializer =>
    split at hb
    · cases hb
    · next type htype =>
      split at hb
      · cases hb
      · next status hstatus =>
        obtain rfl := Except.ok.inj hb
        have hs := Serializer.id_of_ofId? hserializer
        have ht := MessageType.id_of_ofId? htype
        have hstatus := Status.id_of_ofId? hstatus
        cases l with
        | legacy =>
          have hids : b.take 5 = b.take 2 ++ [b.getD 2 0, b.getD 3 0, b.getD 4 0] := by
            rw [take_succ_getD (by omega), take_succ_getD (by omega), take_succ_getD (by omega)]
            simp only [List.append_assoc, List.cons_append, List.nil_append]
          have hall : b.take headerSize =
              b.take 5 ++ (b.drop 5).take 8 ++ (b.drop 13).take 4 := by
            rw [← List.take_add, ← List.take_add]
          rw [hall, hids, hfront, bytesIn, requestId_written _ hlen, bodyLength_written _ hlen,
            hs, ht, hstatus]
          rfl
        | packed =>
          have hids : b.take 4 = b.take 2 ++ [b.getD 2 0, b.getD 3 0] := by
            rw [take_succ_getD (by omega), take_succ_getD (by omega)]
            simp only [List.append_assoc, List.cons_append, List.nil_append]
          have hall : b.take headerSize =
              b.take 4 ++ (b.drop 4).take 8 ++ (b.drop 12).take 4 ++ [b.getD 16 0] := by
            rw [← List.take_add, ← List.take_add, ← take_succ_getD (by omega)]
          have hpacked : packIds serializer.id type.id = b.getD 2 0 := by
            rw [hs, ht]
            exact packIds_halves _
          rw [hall, hids, hfront, bytesIn, requestId_written _ hlen, bodyLength_written _ hlen,
            hpacked, hstatus]
          rfl

/-- A header is read in the layout that its version announces. -/
theorem layout_of_read (hb : read b = .ok h) :
    ∃ l, readLayout b = .ok l ∧ h.Canonical l ∧ h.bytesIn l = b.take headerSize := by
  unfold read at hb
  split at hb
  · cases hb
  · next l hl =>
    split at hb
    · cases hb
    · next hlen =>
      exact ⟨l, hl, canonical_of_fieldsIn hb, bytesIn_of_fieldsIn hl (Nat.le_of_not_lt hlen) hb⟩

/-- A header that has the magic byte, a version, and no reserved bits in the first. -/
theorem canonical_of_version (hmagic : h.magic = 0x01) (hversion : h.version = 1 ∨ h.version = 2)
    (hreserved : h.version = 1 → h.reserved = 0) : ∃ l, h.Canonical l := by
  obtain hlegacy | hpacked := hversion
  · exact ⟨.legacy, hmagic, hlegacy, fun _ => hreserved hlegacy⟩
  · exact ⟨.packed, hmagic, hpacked, fun hl => by cases hl⟩

end Header

/-! ### Frames -/

namespace Frame
variable {f : Frame} {b : Bytes}

/-- A frame with a header that can be read is written with the true length of its body,
and read back with it. -/
theorem decode_of_canonical {l : Layout} (hc : f.header.Canonical l)
    (hbody : f.body.length ≤ maxFrameBody) :
    ∃ b, f.encode = .ok b ∧ b.length = headerSize + f.body.length ∧
      ∀ x, Frame.decode (b ++ x) = .ok (new f.header f.body) := by
  have hwhole : (new f.header f.body).Whole := whole_new hc f.body
  have hnew : (new f.header f.body).header.Canonical l := ⟨hc.magic, hc.version, hc.reserved⟩
  have hencode : f.encode = .ok ((new f.header f.body).header.bytesIn l ++ f.body) := by
    rw [encode, if_neg (Nat.not_lt.2 hbody), Header.write, hnew.layout?]
    rfl
  refine ⟨_, hencode, ?_, hwhole.decode_append hencode⟩
  rw [List.length_append, Header.length_bytesIn]

/-- What is read is whole, with a body of the length that its header announces. -/
theorem whole_of_decode (hb : Frame.decode b = .ok f) :
    f.Whole ∧ headerSize + f.header.bodyLength.toNat ≤ b.length ∧
      Header.read b = .ok f.header ∧
      f.body = (b.drop headerSize).take f.header.bodyLength.toNat := by
  unfold Frame.decode at hb
  split at hb
  · cases hb
  · next header hheader =>
    dsimp only at hb
    split at hb
    · cases hb
    · next hlen =>
      obtain rfl := Except.ok.inj hb
      have hbody : ((b.drop headerSize).take header.bodyLength.toNat).length =
          header.bodyLength.toNat := by
        rw [List.length_take, List.length_drop]
        omega
      refine ⟨⟨Header.canonical_of_read hheader, ?_⟩, Nat.le_of_not_lt hlen, hheader, rfl⟩
      show header.bodyLength = UInt32.ofNat (List.length _)
      rw [hbody, UInt32.ofNat_toNat]

/-- **A frame is written as the bytes it was read from.** -/
theorem encode_of_decode (hb : Frame.decode b = .ok f) :
    f.encode = .ok (b.take (headerSize + f.header.bodyLength.toNat)) := by
  obtain ⟨hwhole, hlen, hread, hbody⟩ := whole_of_decode hb
  obtain ⟨l, -, hc, hbytes⟩ := Header.layout_of_read hread
  have hmax : f.body.length ≤ maxFrameBody := by
    have hlt := f.header.bodyLength.toNat_lt
    rw [hbody, List.length_take]
    exact Nat.le_trans (Nat.min_le_left _ _) (Nat.le_of_lt_succ hlt)
  obtain ⟨d, hd, -⟩ := decode_of_canonical hc hmax
  obtain ⟨-, l', hc', rfl⟩ := hwhole.bytes hd
  obtain rfl : l' = l := by
    have hversion := hc'.layout?
    rw [hc.layout?] at hversion
    exact (Option.some.inj hversion).symm
  rw [hd, hbytes, hbody, ← List.take_add]

/-- **Writing and reading frames undo each other.** A frame whose header can be read is
written, and what is written is read back, whatever follows it, with the true length of the body
in place of the length that the frame held. A frame that was read is written as the very bytes it
was read from, so different bytes are different frames, and the layout is the one that the
version announces. -/
theorem decode_inverts_encode :
    (∀ f : Frame, f.header.magic = 0x01 → (f.header.version = 1 ∨ f.header.version = 2) →
      (f.header.version = 1 → f.header.reserved = 0) → f.body.length < 2 ^ 32 →
      ∃ b length, f.encode = .ok b ∧ length.toNat = f.body.length ∧
        ∀ x, Frame.decode (b ++ x) = .ok
          { f with header := { f.header with bodyLength := length } }) ∧
    (∀ (b : Bytes) (f : Frame), Frame.decode b = .ok f →
      headerSize + f.header.bodyLength.toNat ≤ b.length ∧
      f.encode = .ok (b.take (headerSize + f.header.bodyLength.toNat)) ∧
      b[1]? = some f.header.version ∧
      ∀ l, Header.readLayout b = .ok l ↔ f.header.layout? = some l) ∧
    (∀ (b b' : Bytes) (f : Frame), Frame.decode b = .ok f → Frame.decode b' = .ok f →
      b.take (headerSize + f.header.bodyLength.toNat) =
        b'.take (headerSize + f.header.bodyLength.toNat)) := by
  refine ⟨fun f hmagic hversion hreserved hbody => ?_, fun b f hb => ?_, fun b b' f hb hb' => ?_⟩
  · obtain ⟨l, hc⟩ := Header.canonical_of_version hmagic hversion hreserved
    obtain ⟨b, hencode, -, hdecode⟩ := decode_of_canonical hc (Nat.le_of_lt_succ hbody)
    exact ⟨b, UInt32.ofNat f.body.length, hencode, UInt32.toNat_ofNat_of_lt' hbody, hdecode⟩
  · obtain ⟨-, hlen, hread, -⟩ := whole_of_decode hb
    obtain ⟨l, hl, hc, -⟩ := Header.layout_of_read hread
    refine ⟨hlen, encode_of_decode hb, ?_, fun l' => ?_⟩
    · obtain ⟨rest, rfl⟩ := Header.first_of_readLayout hl
      rw [hc.version]
      rfl
    · rw [hl, hc.layout?, Except.ok.injEq, Option.some.injEq]
  · exact Except.ok.inj ((encode_of_decode hb).symm.trans (encode_of_decode hb'))

/-- A packed frame that announces a wrong length, and the same bytes read with one more byte
behind them. -/
theorem decode_inverts_encode_packed :
    let f : Frame := ⟨⟨0x01, 2, .compact, .response, .badRequest, 8, 7, 0xAB⟩, [1, 2]⟩
    let b : Bytes := [1, 2, 0x21, 40, 0, 0, 0, 0, 0, 0, 0, 8, 0, 0, 0, 2, 0xAB, 1, 2]
    f.encode = .ok b ∧ Frame.decode (b ++ [9]) = .ok { f with header.bodyLength := 2 } ∧
      Frame.encode { f with header.bodyLength := 2 } = .ok ((b ++ [9]).take 19) := by
  intro f b
  obtain ⟨hwrite, hread, -⟩ := decode_inverts_encode
  have hencode : f.encode = .ok b := by with_unfolding_all rfl
  obtain ⟨b', length, hb', hlength, hdecode⟩ := hwrite f rfl (.inr rfl) (by decide) (by decide)
  obtain rfl := Except.ok.inj (hencode.symm.trans hb')
  obtain rfl : length = 2 := UInt32.toNat_inj.1 hlength
  exact ⟨hencode, hdecode [9], (hread _ _ (hdecode [9])).2.1⟩

end Frame
end RemoteCall
