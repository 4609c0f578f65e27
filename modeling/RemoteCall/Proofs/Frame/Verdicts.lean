import RemoteCall.Proofs.Frame.Retained

/-! What more bytes can change about a reading.

A reader that finds too few bytes says how many there are and how many it needs at the least. This is
the only answer that is open: a header or a frame that was read, and any other fault, stands whatever
bytes follow (`Settled`). The checks come in an order, and each waits for its own bytes and for no
others: the magic byte and the version are judged as they come (`Header.readLayout_append`), the ids
when all 17 bytes are there (`Header.fieldsIn_append`), and a frame is cut off when the body that its
header announces is there as well (`Frame.decode_append`). `Frame.decode_stands` says this of both
readers, and how many bytes they ask for. -/
namespace RemoteCall

variable {b : Bytes}

/-- What becomes of the answer to some bytes when others follow. If they were too few, there were
fewer than the answer asks for, and nothing is read before these are there. Any other answer
stands. -/
structure Settled {α : Type} (read : Bytes → Except FrameError α) (b : Bytes) : Prop where
  stands : (∀ expected actual, read b ≠ .error (.truncated expected actual)) →
    ∀ x, read (b ++ x) = read b
  short : ∀ expected actual, read b = .error (.truncated expected actual) →
    actual = b.length ∧ b.length < expected ∧
      ∀ x, (b ++ x).length < expected → ∀ a, read (b ++ x) ≠ .ok a

/-! ### Headers -/

namespace Header
variable {expected actual : Nat}

/-- The look at the first two bytes asks for a whole header, while one of the two is missing. -/
theorem readLayout_truncated (h : readLayout b = .error (.truncated expected actual)) :
    expected = headerSize ∧ actual = b.length ∧ b.length < headerSize := by
  match b with
  | [] =>
    simp only [readLayout, Except.error.injEq, FrameError.truncated.injEq] at h
    exact ⟨h.1.symm, h.2.symm, by decide⟩
  | [magic] =>
    by_cases hm : magic = magicByte
    · simp only [readLayout, hm, ne_eq, not_true_eq_false, if_false, Except.error.injEq,
        FrameError.truncated.injEq] at h
      have hshort : 1 < headerSize := by decide
      exact ⟨h.1.symm, h.2.symm, hshort⟩
    · simp [readLayout, hm] at h
  | magic :: version :: rest =>
    by_cases hm : magic = magicByte
    · cases hv : Layout.ofVersion? version <;> simp [readLayout, hm, hv] at h
    · simp [readLayout, hm] at h

theorem fieldsIn_ne_truncated (l : Layout) (b : Bytes) :
    fieldsIn l b ≠ .error (.truncated expected actual) := by
  intro h
  cases fieldsIn_error h

/-- The fields are in the first 17 bytes. -/
theorem fieldsIn_append (l : Layout) (hb : headerSize ≤ b.length) (x : Bytes) :
    fieldsIn l (b ++ x) = fieldsIn l b := by
  have hbyte : ∀ n, n < 17 → (b ++ x)[n]? = b[n]? := by
    intro n hn
    exact List.getElem?_append_left (Nat.lt_of_lt_of_le hn hb)
  have hserializer : l.serializerId (b ++ x) = l.serializerId b := by
    cases l <;> simp [Layout.serializerId, hbyte]
  have htype : l.typeId (b ++ x) = l.typeId b := by
    cases l <;> simp [Layout.typeId, hbyte]
  have hstatus : l.statusId (b ++ x) = l.statusId b := by
    cases l <;> simp [Layout.statusId, Layout.statusOffset, hbyte]
  have hreserved : l.reserved (b ++ x) = l.reserved b := by
    cases l <;> simp [Layout.reserved, hbyte]
  simp only [fieldsIn, hserializer, htype, hstatus, hreserved, l.requestId_append hb,
    l.bodyLength_append hb]

/-- The reader of headers asks for 17 bytes, while there are fewer. -/
theorem read_truncated (h : read b = .error (.truncated expected actual)) :
    expected = headerSize ∧ actual = b.length ∧ b.length < headerSize := by
  unfold read at h
  cases hlayout : readLayout b with
  | error e =>
    rw [hlayout] at h
    obtain rfl := Except.error.inj h
    exact readLayout_truncated hlayout
  | ok l =>
    simp only [hlayout] at h
    by_cases hshort : b.length < headerSize
    · simp only [if_pos hshort, Except.error.injEq, FrameError.truncated.injEq] at h
      exact ⟨h.1.symm, h.2.symm, hshort⟩
    · rw [if_neg hshort] at h
      exact absurd h (fieldsIn_ne_truncated l b)

theorem headerSize_le_of_read {header : Header} (h : read b = .ok header) :
    headerSize ≤ b.length := by
  unfold read at h
  split at h
  · cases h
  · split at h
    · cases h
    · next hlong => exact Nat.le_of_not_lt hlong

/-- Any other answer is given again with bytes behind. -/
theorem read_append (h : ∀ expected actual, read b ≠ .error (.truncated expected actual))
    (x : Bytes) : read (b ++ x) = read b := by
  have hlayout : readLayout (b ++ x) = readLayout b := by
    apply readLayout_append
    intro expected actual he
    exact h expected actual (by rw [read, he])
  cases hl : readLayout b with
  | error e => simp only [read, hlayout, hl]
  | ok l =>
    -- With a layout, the ids were judged: there were 17 bytes.
    have hb : headerSize ≤ b.length := by
      by_contra hshort
      exact h headerSize b.length (by simp [read, hl, Nat.lt_of_not_le hshort])
    have hbx : headerSize ≤ (b ++ x).length := by
      rw [List.length_append]
      exact Nat.le_add_right_of_le hb
    rw [read_eq_fieldsIn (hlayout.trans hl) hbx, read_eq_fieldsIn hl hb, fieldsIn_append l hb]

theorem settled_read (b : Bytes) : Settled read b where
  stands := read_append
  short expected actual h := by
    obtain ⟨rfl, hactual, hlt⟩ := read_truncated h
    refine ⟨hactual, hlt, fun x hx header hread => ?_⟩
    exact Nat.not_lt.2 (headerSize_le_of_read hread) hx

/-- The length that a header announces is the one that its bytes announce. -/
theorem announced_of_read {header : Header} (h : read b = .ok header) :
    header.bodyLength.toNat = announced b := by
  have hb := headerSize_le_of_read h
  unfold announced
  cases hlayout : readLayout b with
  | error e => simp [read, hlayout] at h
  | ok l =>
    rw [read_eq_fieldsIn hlayout hb] at h
    rw [fieldsIn_bodyLength h]

end Header

/-! ### Frames -/

namespace Frame
variable {expected actual : Nat}

theorem decode_of_error {e : FrameError} (h : Header.read b = .error e) : decode b = .error e := by
  rw [decode, h]

theorem decode_of_short {header : Header} (h : Header.read b = .ok header)
    (hshort : b.length < headerSize + header.bodyLength.toNat) :
    decode b = .error (.truncated (headerSize + header.bodyLength.toNat) b.length) := by
  rw [decode, h]
  exact if_pos hshort

theorem decode_of_whole {header : Header} (h : Header.read b = .ok header)
    (hwhole : headerSize + header.bodyLength.toNat ≤ b.length) :
    decode b = .ok ⟨header, (b.drop headerSize).take header.bodyLength.toNat⟩ := by
  rw [decode, h]
  exact if_neg (Nat.not_lt.2 hwhole)

/-- The reader of frames asks for a header, or for the body that the header announces. -/
theorem decode_truncated (h : decode b = .error (.truncated expected actual)) :
    Header.read b = .error (.truncated expected actual) ∨
      ∃ header, Header.read b = .ok header ∧ b.length < expected ∧ actual = b.length ∧
        expected = headerSize + header.bodyLength.toNat := by
  cases hread : Header.read b with
  | error e =>
    rw [decode_of_error hread] at h
    exact .inl (congrArg Except.error (Except.error.inj h))
  | ok header =>
    by_cases hshort : b.length < headerSize + header.bodyLength.toNat
    · rw [decode_of_short hread hshort] at h
      obtain ⟨rfl, rfl⟩ := FrameError.truncated.inj (Except.error.inj h)
      exact .inr ⟨header, rfl, hshort, rfl, rfl⟩
    · rw [decode_of_whole hread (Nat.le_of_not_lt hshort)] at h
      cases h

theorem decode_append (h : ∀ expected actual, decode b ≠ .error (.truncated expected actual))
    (x : Bytes) : decode (b ++ x) = decode b := by
  have hread : Header.read (b ++ x) = Header.read b := by
    apply Header.read_append
    intro expected actual he
    exact h expected actual (decode_of_error he)
  cases hb : Header.read b with
  | error e => rw [decode_of_error hb, decode_of_error (hread.trans hb)]
  | ok header =>
    have hwhole : headerSize + header.bodyLength.toNat ≤ b.length := by
      by_contra hshort
      exact h _ _ (decode_of_short hb (Nat.lt_of_not_le hshort))
    have hlength : (b ++ x).length = b.length + x.length := List.length_append
    have hbody : ((b ++ x).drop headerSize).take header.bodyLength.toNat =
        (b.drop headerSize).take header.bodyLength.toNat := by
      rw [List.drop_append_of_le_length (by omega), List.take_append_of_le_length]
      rw [List.length_drop]
      omega
    rw [decode_of_whole hb hwhole, decode_of_whole (hread.trans hb) (by omega), hbody]

theorem settled_decode (b : Bytes) : Settled decode b where
  stands := decode_append
  short expected actual h := by
    obtain hheader | ⟨header, hread, hlt, hactual, rfl⟩ := decode_truncated h
    · -- No frame is read without a header.
      obtain ⟨hactual, hlt, hnone⟩ := (Header.settled_read b).short expected actual hheader
      refine ⟨hactual, hlt, fun x hx f hf => ?_⟩
      cases hread : Header.read (b ++ x) with
      | error e =>
        rw [decode_of_error hread] at hf
        cases hf
      | ok header => exact hnone x hx header hread
    · -- The header stands, and goes on to ask for the same body.
      refine ⟨hactual, hlt, fun x hx f hf => ?_⟩
      have hmore : Header.read (b ++ x) = .ok header := by
        rw [Header.read_append _ x, hread]
        rw [hread]
        exact nofun
      rw [decode_of_short hmore hx] at hf
      cases hf

/-- **More bytes change no answer but that there are too few.** A frame or a header that is read, and
every other fault, is found again whatever follows. Where bytes are missing, nothing is read from
fewer than were asked for: the 17 of a header until it is there, and then these and the body that
it announces. -/
theorem decode_stands (b : Bytes) :
    Settled decode b ∧ Settled Header.read b ∧
      (∀ expected actual, Header.read b = .error (.truncated expected actual) →
        expected = headerSize) ∧
      ∀ expected actual, decode b = .error (.truncated expected actual) →
        expected = if b.length < headerSize then headerSize else headerSize + Header.announced b := by
  refine ⟨settled_decode b, Header.settled_read b, fun expected actual h => ?_,
    fun expected actual h => ?_⟩
  · exact (Header.read_truncated h).1
  · obtain hheader | ⟨header, hread, -, -, rfl⟩ := decode_truncated h
    · obtain ⟨rfl, -, hlt⟩ := Header.read_truncated hheader
      rw [if_pos hlt]
    · have hb := Header.headerSize_le_of_read hread
      rw [if_neg (Nat.not_lt.2 hb), Header.announced_of_read hread]

/-- Two bytes of a header, and a header that announces three bytes with one of them behind it. -/
example : decode [1, 2] = .error (.truncated 17 2) ∧
    decode [1, 2, 16, 20, 0, 0, 0, 0, 0, 0, 0, 7, 0, 0, 0, 3, 0, 9] = .error (.truncated 20 18) := by
  decide

end Frame
end RemoteCall
