import RemoteCall.Text.Utf8

/-! Text that is written as UTF-8 is read back.

A character takes one to four bytes, by how large its number is. Its first byte says how
many, and no byte of it is one at which reading stops (`step_encodeChar`), so reading the
bytes of a text passes its characters one by one (`decode_encode`). -/
namespace RemoteCall.Utf8

/-! ### One sequence -/

theorem toNat_ofNat {n : Nat} (h : n < 256) : (UInt8.ofNat n).toNat = n :=
  UInt8.toNat_ofNat_of_lt' h

section Sequence
variable {a b c d : UInt8} (x : List UInt8)

theorem isTail_iff (b : UInt8) : isTail b = true ↔ 128 ≤ b.toNat ∧ b.toNat ≤ 191 := by
  simp [isTail, UInt8.le_iff_toNat_le]

theorem step_one (ha : a.toNat < 128) : step a x = .char (Char.ofNat a.toNat) 1 := by
  have hlt : a < 0x80 := UInt8.lt_iff_toNat_lt.2 ha
  rw [step, if_pos hlt]

theorem step_two (h₁ : 194 ≤ a.toNat) (h₂ : a.toNat < 224) (hb : isTail b = true) :
    step a (b :: x) = .char (Char.ofNat (a.toNat % 32 * 64 + low6 b)) 2 := by
  have hA : ¬ a < 0x80 := by rw [UInt8.lt_iff_toNat_lt]; show ¬ a.toNat < 128; omega
  have hC : ¬ a < 0xC2 := by rw [UInt8.lt_iff_toNat_lt]; show ¬ a.toNat < 194; omega
  have hE : a < 0xE0 := UInt8.lt_iff_toNat_lt.2 h₂
  rw [step, if_neg hA, if_neg hC, if_pos hE, step2, if_pos hb]

theorem second3_of (h₁ : a.toNat = 224 → 160 ≤ b.toNat) (h₂ : a.toNat = 237 → b.toNat ≤ 159)
    (hb : isTail b = true) : second3 a b = true := by
  have htail := (isTail_iff b).1 hb
  have hE0 : a = 0xE0 ↔ a.toNat = 224 := UInt8.toNat_inj.symm
  have hED : a = 0xED ↔ a.toNat = 237 := UInt8.toNat_inj.symm
  unfold second3
  split
  · next h =>
    have := h₁ (hE0.1 h)
    simp only [Bool.and_eq_true, decide_eq_true_eq, UInt8.le_iff_toNat_le]
    exact ⟨this, htail.2⟩
  · split
    · next h =>
      have := h₂ (hED.1 h)
      simp only [Bool.and_eq_true, decide_eq_true_eq, UInt8.le_iff_toNat_le]
      exact ⟨htail.1, this⟩
    · exact hb

theorem step_three (h₁ : 224 ≤ a.toNat) (h₂ : a.toNat < 240)
    (hE0 : a.toNat = 224 → 160 ≤ b.toNat) (hED : a.toNat = 237 → b.toNat ≤ 159)
    (hb : isTail b = true) (hc : isTail c = true) :
    step a (b :: c :: x) =
      .char (Char.ofNat (a.toNat % 16 * 4096 + low6 b * 64 + low6 c)) 3 := by
  have hA : ¬ a < 0x80 := by rw [UInt8.lt_iff_toNat_lt]; show ¬ a.toNat < 128; omega
  have hC : ¬ a < 0xC2 := by rw [UInt8.lt_iff_toNat_lt]; show ¬ a.toNat < 194; omega
  have hE : ¬ a < 0xE0 := by rw [UInt8.lt_iff_toNat_lt]; show ¬ a.toNat < 224; omega
  have hF : a < 0xF0 := UInt8.lt_iff_toNat_lt.2 h₂
  rw [step, if_neg hA, if_neg hC, if_neg hE, if_pos hF, step3, if_pos (second3_of hE0 hED hb)]
  simp only [hc, if_true]

theorem second4_of (h₁ : a.toNat = 240 → 144 ≤ b.toNat) (h₂ : a.toNat = 244 → b.toNat ≤ 143)
    (hb : isTail b = true) : second4 a b = true := by
  have htail := (isTail_iff b).1 hb
  have hF0 : a = 0xF0 ↔ a.toNat = 240 := UInt8.toNat_inj.symm
  have hF4 : a = 0xF4 ↔ a.toNat = 244 := UInt8.toNat_inj.symm
  unfold second4
  split
  · next h =>
    have := h₁ (hF0.1 h)
    simp only [Bool.and_eq_true, decide_eq_true_eq, UInt8.le_iff_toNat_le]
    exact ⟨this, htail.2⟩
  · split
    · next h =>
      have := h₂ (hF4.1 h)
      simp only [Bool.and_eq_true, decide_eq_true_eq, UInt8.le_iff_toNat_le]
      exact ⟨htail.1, this⟩
    · exact hb

theorem step_four (h₁ : 240 ≤ a.toNat) (h₂ : a.toNat < 245)
    (hF0 : a.toNat = 240 → 144 ≤ b.toNat) (hF4 : a.toNat = 244 → b.toNat ≤ 143)
    (hb : isTail b = true) (hc : isTail c = true) (hd : isTail d = true) :
    step a (b :: c :: d :: x) =
      .char (Char.ofNat (a.toNat % 8 * 262144 + low6 b * 4096 + low6 c * 64 + low6 d)) 4 := by
  have hA : ¬ a < 0x80 := by rw [UInt8.lt_iff_toNat_lt]; show ¬ a.toNat < 128; omega
  have hC : ¬ a < 0xC2 := by rw [UInt8.lt_iff_toNat_lt]; show ¬ a.toNat < 194; omega
  have hE : ¬ a < 0xE0 := by rw [UInt8.lt_iff_toNat_lt]; show ¬ a.toNat < 224; omega
  have hF : ¬ a < 0xF0 := by rw [UInt8.lt_iff_toNat_lt]; show ¬ a.toNat < 240; omega
  have hF5 : a < 0xF5 := UInt8.lt_iff_toNat_lt.2 h₂
  rw [step, if_neg hA, if_neg hC, if_neg hE, if_neg hF, if_pos hF5, step4,
    if_pos (second4_of hF0 hF4 hb)]
  simp only [hc, hd, if_true]

end Sequence

/-! ### One character -/

theorem isTail_low (n : Nat) : isTail (UInt8.ofNat (n % 64 + 128)) = true := by
  rw [isTail_iff, toNat_ofNat (show n % 64 + 128 < 256 by omega)]
  omega

theorem low6_low (n : Nat) : low6 (UInt8.ofNat (n % 64 + 128)) = n % 64 := by
  rw [low6, toNat_ofNat (show n % 64 + 128 < 256 by omega)]
  omega

/-- The numbers between the two ranges that stand for characters do not occur. -/
theorem val_range (c : Char) :
    c.val.toNat < 55296 ∨ 57343 < c.val.toNat ∧ c.val.toNat < 1114112 := c.valid

/-- Judging a character that is written, with anything behind it, gives it and its width. -/
theorem step_encodeChar (c : Char) :
    ∃ a tail, encodeChar c = a :: tail ∧
      ∀ x, step a (tail ++ x) = .char c (tail.length + 1) := by
  have hrange := val_range c
  have hchar : Char.ofNat c.val.toNat = c := Char.ofNat_toNat c
  unfold encodeChar String.utf8EncodeChar
  generalize c.val.toNat = v at hrange hchar
  dsimp only
  split
  · refine ⟨_, _, rfl, fun x => ?_⟩
    have ha : (UInt8.ofNat v).toNat = v := toNat_ofNat (by omega)
    rw [List.nil_append, step_one x (by omega), ha, hchar]
    rfl
  · split
    · refine ⟨_, _, rfl, fun x => ?_⟩
      have ha : (UInt8.ofNat (v / 64 % 32 + 192)).toNat = v / 64 % 32 + 192 :=
        toNat_ofNat (by omega)
      rw [List.singleton_append, step_two x (by omega) (by omega) (isTail_low v), low6_low, ha,
        show (v / 64 % 32 + 192) % 32 * 64 + v % 64 = v by omega, hchar]
      rfl
    · split
      · refine ⟨_, _, rfl, fun x => ?_⟩
        have ha : (UInt8.ofNat (v / 4096 % 16 + 224)).toNat = v / 4096 % 16 + 224 :=
          toNat_ofNat (by omega)
        have hb : (UInt8.ofNat (v / 64 % 64 + 128)).toNat = v / 64 % 64 + 128 :=
          toNat_ofNat (by omega)
        rw [List.cons_append, List.singleton_append,
          step_three x (by omega) (by omega) (by omega) (by omega) (isTail_low _) (isTail_low v),
          low6_low, low6_low, ha,
          show (v / 4096 % 16 + 224) % 16 * 4096 + v / 64 % 64 * 64 + v % 64 = v by omega, hchar]
        rfl
      · refine ⟨_, _, rfl, fun x => ?_⟩
        have ha : (UInt8.ofNat (v / 262144 % 8 + 240)).toNat = v / 262144 % 8 + 240 :=
          toNat_ofNat (by omega)
        have hb : (UInt8.ofNat (v / 4096 % 64 + 128)).toNat = v / 4096 % 64 + 128 :=
          toNat_ofNat (by omega)
        rw [List.cons_append, List.cons_append, List.singleton_append,
          step_four x (by omega) (by omega) (by omega) (by omega) (isTail_low _) (isTail_low _)
            (isTail_low v), low6_low, low6_low, low6_low, ha,
          show (v / 262144 % 8 + 240) % 8 * 262144 + v / 4096 % 64 * 4096 + v / 64 % 64 * 64
            + v % 64 = v by omega, hchar]
        rfl

/-- A character with a number below 128 is one byte. -/
theorem encodeChar_low {c : Char} (h : c.toNat < 128) : encodeChar c = [UInt8.ofNat c.toNat] := by
  unfold encodeChar String.utf8EncodeChar
  exact if_pos (Nat.le_of_lt_succ h)

/-- All bytes of the other characters lie above. -/
theorem encodeChar_high {c : Char} (h : 128 ≤ c.toNat) {b : UInt8} (hb : b ∈ encodeChar c) :
    128 ≤ b.toNat := by
  have hrange := val_range c
  change 128 ≤ c.val.toNat at h
  unfold encodeChar String.utf8EncodeChar at hb
  generalize c.val.toNat = v at hb h hrange
  dsimp only at hb
  rw [if_neg (by omega)] at hb
  split at hb
  · simp only [List.mem_cons, List.not_mem_nil, or_false] at hb
    rcases hb with rfl | rfl <;> rw [toNat_ofNat (by omega)] <;> omega
  · split at hb
    · simp only [List.mem_cons, List.not_mem_nil, or_false] at hb
      rcases hb with rfl | rfl | rfl <;> rw [toNat_ofNat (by omega)] <;> omega
    · simp only [List.mem_cons, List.not_mem_nil, or_false] at hb
      rcases hb with rfl | rfl | rfl | rfl <;> rw [toNat_ofNat (by omega)] <;> omega

/-! ### Whole texts -/

theorem encode_append (s t : String) : encode (s ++ t) = encode s ++ encode t := by
  rw [encode, String.toList_append, List.flatMap_append]
  rfl

theorem encode_join (texts : List String) : encode (String.join texts) = texts.flatMap encode := by
  rw [encode, String.toList_join, List.flatMap_assoc]
  rfl

theorem chars_skip (offset : Nat) (skipped x : List UInt8) :
    chars offset skipped.length (skipped ++ x) = chars (offset + skipped.length) 0 x := by
  induction skipped generalizing offset with
  | nil => rfl
  | cons b rest ih =>
    rw [List.cons_append, List.length_cons, chars, ih]
    congr 1
    omega

theorem chars_encodeChar (offset : Nat) (c : Char) (x : List UInt8) :
    chars offset 0 (encodeChar c ++ x) =
      (chars (offset + (encodeChar c).length) 0 x).map (c :: ·) := by
  obtain ⟨a, tail, hbytes, hstep⟩ := step_encodeChar c
  rw [hbytes, List.cons_append, chars, hstep]
  show (chars (offset + 1) tail.length (tail ++ x)).map _ = _
  rw [chars_skip, List.length_cons]
  congr 2
  omega

theorem chars_encode (offset : Nat) (cs : List Char) :
    chars offset 0 (cs.flatMap encodeChar) = .ok cs := by
  induction cs generalizing offset with
  | nil => rfl
  | cons c rest ih => rw [List.flatMap_cons, chars_encodeChar, ih]; rfl

/-- **Text that is written is read back.** -/
theorem decode_encode (s : String) : decode (encode s) = .ok s := by
  rw [decode, encode, chars_encode]
  exact congrArg Except.ok (String.ofList_toList)

end RemoteCall.Utf8
