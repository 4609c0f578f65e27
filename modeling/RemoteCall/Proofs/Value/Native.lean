import RemoteCall.Proofs.Text.Utf8
import RemoteCall.Value.Native

/-! A value that is written in the native format is read back.

Lengths take eight bytes and the index of an alternative four, so a value must not be
larger than that (`Fits`); the format then loses nothing, and what is read stops exactly
where the value ends (`read_write`). -/
namespace RemoteCall.Native

/-! ### Values that fit -/

/-- Whether a length can be written. -/
def fitsLength (n : Nat) : Prop := n < Bytes.capacity 8

mutual

/-- Whether every length and every index in a value can be written, and every dictionary in
it is one. -/
def Fits {α : Type} : Shape α → α → Prop
  | .bool, _ | .int _, _ | .char, _ | .unit, _ => True
  | .text, s => fitsLength (Utf8.encode s).length
  | .list item, xs => fitsLength xs.length ∧ ∀ x ∈ xs, Fits item x
  | .option _, none => True
  | .option s, some x => Fits s x
  | .dict value, d =>
    fitsLength d.length ∧ Dict.ofEntries d = d ∧
      ∀ e ∈ d, fitsLength (Utf8.encode e.1).length ∧ Fits value e.2
  | .tuple fields, x => FitsFields fields x
  | .record _ _ fields, x => FitsFields fields x
  | .choice _, i => i.val < Bytes.capacity 4
  | .via s unwrap _ _, x => Fits s (unwrap x)

def FitsFields {α : Type} : Fields α → α → Prop
  | .nil, _ => True
  | .cons _ s _ rest, (x, xs) => Fits s x ∧ FitsFields rest xs

end

/-! ### Parts -/

theorem readNat_ofNatLE {size n : Nat} (h : n < Bytes.capacity size) (rest : Bytes) :
    readNat size (Bytes.ofNatLE size n ++ rest) = .ok (n, rest) := by
  have hsplit := Bytes.split?_append (Bytes.ofNatLE size n) rest
  rw [Bytes.length_ofNatLE] at hsplit
  rw [readNat, hsplit]
  simp only [Bytes.toNatLE_ofNatLE, Nat.mod_eq_of_lt h]

theorem readText_writeText {s : String} (h : fitsLength (Utf8.encode s).length) (rest : Bytes) :
    readText (writeText s ++ rest) = .ok (s, rest) := by
  rw [readText, writeText, List.append_assoc, writeLength, readNat_ofNatLE h]
  simp only [bind, Except.bind, Bytes.split?_append, Utf8.decode_encode]

theorem charWidth_eq (b : UInt8) :
    charWidth b = if b.toNat < 128 then 1 else if b.toNat < 194 then 0 else
      if b.toNat < 224 then 2 else if b.toNat < 240 then 3 else if b.toNat < 245 then 4 else 0 := by
  simp only [charWidth, UInt8.lt_iff_toNat_lt]
  rfl

/-- The first byte of a character tells its width. -/
theorem charWidth_encodeChar (c : Char) :
    ∃ a tail, Utf8.encodeChar c = a :: tail ∧ charWidth a = tail.length + 1 := by
  have hrange := Utf8.val_range c
  unfold Utf8.encodeChar String.utf8EncodeChar
  generalize c.val.toNat = v at hrange
  dsimp only
  split
  · refine ⟨_, _, rfl, ?_⟩
    rw [charWidth_eq, Utf8.toNat_ofNat (by omega), if_pos (by omega)]
    rfl
  · split
    · refine ⟨_, _, rfl, ?_⟩
      rw [charWidth_eq, Utf8.toNat_ofNat (by omega), if_neg (by omega), if_neg (by omega),
        if_pos (by omega)]
      rfl
    · split
      · refine ⟨_, _, rfl, ?_⟩
        rw [charWidth_eq, Utf8.toNat_ofNat (by omega), if_neg (by omega), if_neg (by omega),
          if_neg (by omega), if_pos (by omega)]
        rfl
      · refine ⟨_, _, rfl, ?_⟩
        rw [charWidth_eq, Utf8.toNat_ofNat (by omega), if_neg (by omega), if_neg (by omega),
          if_neg (by omega), if_neg (by omega), if_pos (by omega)]
        rfl

theorem readChar_encodeChar (c : Char) (rest : Bytes) :
    readChar (Utf8.encodeChar c ++ rest) = .ok (c, rest) := by
  obtain ⟨a, tail, hbytes, hwidth⟩ := charWidth_encodeChar c
  have hdecode : Utf8.decode (a :: tail) = .ok (String.ofList [c]) := by
    have := Utf8.decode_encode (String.ofList [c])
    rwa [Utf8.encode, String.toList_ofList, List.flatMap_singleton, hbytes] at this
  have hsplit := Bytes.split?_append (a :: tail) rest
  rw [List.length_cons, ← hwidth, List.cons_append] at hsplit
  rw [hbytes, List.cons_append, readChar, hsplit]
  simp only [hdecode, String.toList_ofList]

/-- Values that are read back one by one are read back in a row. -/
theorem readMany_flatMap {α : Type} {one : Reader α} {write : α → Bytes} {xs : List α}
    (h : ∀ x ∈ xs, ∀ rest, one (write x ++ rest) = .ok (x, rest)) (rest : Bytes) :
    readMany one xs.length (xs.flatMap write ++ rest) = .ok (xs, rest) := by
  induction xs with
  | nil => rfl
  | cons x xs ih =>
    rw [List.flatMap_cons, List.length_cons, readMany, List.append_assoc,
      h x List.mem_cons_self]
    simp only [bind, Except.bind]
    rw [ih fun y hy => h y (List.mem_cons_of_mem _ hy)]

/-! ### Whole values -/

mutual

/-- **A value that is written is read back**, and what follows it is left. -/
theorem read_write {α : Type} : (s : Shape α) → (x : α) → Fits s x → (rest : Bytes) →
    read s (write s x ++ rest) = .ok (x, rest)
  | .bool, b, _, rest => by cases b <;> rfl
  | .int k, w, _, rest => by
    have hlt : w.toNat < Bytes.capacity k.size := by
      have := w.isLt
      cases k <;> exact this
    rw [read, write]
    dsimp only
    rw [readNat_ofNatLE hlt]
    simp only [bind, Except.bind, BitVec.ofNat_toNat, BitVec.setWidth_eq]
  | .char, c, _, rest => readChar_encodeChar c rest
  | .unit, (), _, rest => rfl
  | .text, s, h, rest => readText_writeText h rest
  | .list item, xs, h, rest => by
    rw [read, write, List.append_assoc, writeLength]
    dsimp only
    rw [readNat_ofNatLE h.1]
    simp only [bind, Except.bind]
    exact readMany_flatMap (fun x hx rest => read_write item x (h.2 x hx) rest) rest
  | .option s, none, _, rest => rfl
  | .option s, some x, h, rest => by
    rw [write, List.cons_append, read]
    dsimp only
    rw [if_neg (by decide), if_pos rfl, read_write s x h rest]
    rfl
  | .dict value, d, h, rest => by
    obtain ⟨hlen, hdict, hentries⟩ := h
    rw [read, write, List.append_assoc, writeLength]
    dsimp only
    rw [readNat_ofNatLE hlen]
    simp only [bind, Except.bind]
    rw [readMany_flatMap (fun e he rest => ?_) rest]
    · simp only [hdict]
    · obtain ⟨hkey, hvalue⟩ := hentries e he
      simp only [List.append_assoc, readText_writeText hkey, read_write value e.2 hvalue rest]
  | .tuple fields, x, h, rest => readFields_writeFields fields x h rest
  | .record _ _ fields, x, h, rest => readFields_writeFields fields x h rest
  | .choice variants, i, h, rest => by
    rw [read, write]
    dsimp only
    rw [readNat_ofNatLE h]
    simp only [bind, Except.bind, dif_pos i.isLt]
  | .via s unwrap wrap wrap_unwrap, x, h, rest => by
    rw [read, write]
    dsimp only
    rw [read_write s (unwrap x) h rest]
    simp only [Except.map, wrap_unwrap]

theorem readFields_writeFields {α : Type} : (fields : Fields α) → (x : α) →
    FitsFields fields x → (rest : Bytes) →
    readFields fields (writeFields fields x ++ rest) = .ok (x, rest)
  | .nil, (), _, rest => rfl
  | .cons _ s _ fields, (x, xs), h, rest => by
    rw [readFields, writeFields, List.append_assoc]
    dsimp only
    rw [read_write s x h.1]
    simp only [bind, Except.bind]
    rw [readFields_writeFields fields xs h.2 rest]

end

theorem decode_write {α : Type} {s : Shape α} {x : α} (h : Fits s x) :
    decode s (write s x) = .ok x := by
  have hread := read_write s x h []
  rw [List.append_nil] at hread
  rw [decode, hread]
  rfl

end RemoteCall.Native
