import RemoteCall.Json.Read
import RemoteCall.Proofs.Text.Utf8

/-! Strings and numbers of JSON text that are written are read back.

Each character of a string is written either as itself, in bytes none of which means
anything to a reader, or as an escape that names it (`escapedChar_cases`); so a reader
takes a string character by character and stops at its closing mark (`scanString_write`).
The digits of a number are read one onto the other, and a number ends where something
follows that is no part of one (`EndsNumber`, `readInt_write`). -/
namespace RemoteCall.Json
open Utf8 (encodeChar)

/-! ### Blanks -/

theorem skipBlanks_of_not_blank {c : UInt8} (h : isBlank c = false) (rest : Bytes) :
    skipBlanks (c :: rest) = c :: rest := by
  rw [skipBlanks, List.dropWhile_cons, h]
  rfl

theorem onNext_of_not_blank {α : Type} {c : UInt8} (h : isBlank c = false) (rest : Bytes)
    (f : UInt8 → Scanner α) : onNext (c :: rest) f = f c rest := by
  rw [onNext, skipBlanks_of_not_blank h]

theorem isBlank_digit {b : UInt8} (h : isDigit b = true) : isBlank b = false := by
  have hrange : 48 ≤ b.toNat ∧ b.toNat ≤ 57 := by
    simpa [isDigit, UInt8.le_iff_toNat_le] using h
  have h32 : b = 32 ↔ b.toNat = 32 := UInt8.toNat_inj.symm
  have h10 : b = 10 ↔ b.toNat = 10 := UInt8.toNat_inj.symm
  have h9 : b = 9 ↔ b.toNat = 9 := UInt8.toNat_inj.symm
  have h13 : b = 13 ↔ b.toNat = 13 := UInt8.toNat_inj.symm
  simp only [isBlank, h32, h10, h9, h13, Bool.or_eq_false_iff, decide_eq_false_iff_not]
  omega

/-! ### Strings -/

theorem isPlain_iff (b : UInt8) :
    isPlain b = true ↔ b.toNat ≠ 34 ∧ b.toNat ≠ 92 ∧ 32 ≤ b.toNat := by
  have h34 : b = 34 ↔ b.toNat = 34 := UInt8.toNat_inj.symm
  have h92 : b = 92 ↔ b.toNat = 92 := UInt8.toNat_inj.symm
  have h32 : b < 32 ↔ b.toNat < 32 := UInt8.lt_iff_toNat_lt
  simp only [isPlain, isControl, ne_eq, Bool.and_eq_true, Bool.not_eq_true', decide_eq_true_eq,
    decide_eq_false_iff_not, h34, h92, h32]
  omega

/-- The byte of a digit, of a decimal or a hexadecimal one. -/
def digitByte (n : Nat) : UInt8 := UInt8.ofNat (Nat.digitChar n).toNat

theorem encodeChar_digit : ∀ n < 16, encodeChar (Nat.digitChar n) = [digitByte n] := by
  decide

theorem hexValue?_digit : ∀ n < 16, hexValue? (digitByte n) = some n := by
  decide

/-- The escape of a control character without a letter of its own. -/
theorem scanEscape_control {n : Nat} (h : n < 32) (rest : Bytes) :
    scanEscape (117 :: 48 :: 48 :: digitByte (n / 16) :: digitByte (n % 16) :: rest) =
      .ok (encodeChar (Char.ofNat n), rest) := by
  have hscan : scanHex4 (48 :: 48 :: digitByte (n / 16) :: digitByte (n % 16) :: rest) =
      .ok (n, rest) := by
    have hzero : hexValue? 48 = some 0 := rfl
    simp only [scanHex4, hzero, hexValue?_digit (n / 16) (by omega),
      hexValue?_digit (n % 16) (by omega)]
    congr 2
    omega
  have hlow : isLowSurrogate n = false := by
    simp only [isLowSurrogate, Bool.and_eq_false_iff, decide_eq_false_iff_not]
    omega
  have hhigh : isHighSurrogate n = false := by
    simp only [isHighSurrogate, Bool.and_eq_false_iff, decide_eq_false_iff_not]
    omega
  have hletter : escapedByte? 117 = none := rfl
  simp only [scanEscape, hletter, if_true, scanUnicode, hscan, bind, Except.bind, hlow, hhigh]
  rfl

/-- A character stands for itself or is escaped, and then its escape names it. -/
theorem escapedChar_cases (c : Char) :
    (Utf8.encode (escapedChar c) = encodeChar c ∧ ∀ b ∈ encodeChar c, isPlain b = true) ∨
    ∃ tail, Utf8.encode (escapedChar c) = 92 :: tail ∧
      ∀ rest, scanEscape (tail ++ rest) = .ok (encodeChar c, rest) := by
  have named {d : Char} (h : c.toNat = d.toNat) : c = d := Char.toNat_inj.1 h
  unfold escapedChar
  split
  · next h => exact .inr ⟨[34], rfl, fun rest => by rw [h]; rfl⟩
  split
  · next h => exact .inr ⟨[92], rfl, fun rest => by rw [h]; rfl⟩
  split
  · next h => exact .inr ⟨[110], rfl, fun rest => by rw [h]; rfl⟩
  split
  · next h => exact .inr ⟨[114], rfl, fun rest => by rw [h]; rfl⟩
  split
  · next h => exact .inr ⟨[116], rfl, fun rest => by rw [h]; rfl⟩
  split
  · next h =>
    obtain rfl : c = Char.ofNat 8 := named h
    exact .inr ⟨[98], rfl, fun rest => rfl⟩
  split
  · next h =>
    obtain rfl : c = Char.ofNat 12 := named h
    exact .inr ⟨[102], rfl, fun rest => rfl⟩
  split
  · next h =>
    have hlow : c = Char.ofNat c.toNat := (Char.ofNat_toNat c).symm
    refine .inr ⟨[117, 48, 48, digitByte (c.toNat / 16), digitByte (c.toNat % 16)], ?_,
      fun rest => ?_⟩
    · have hdigits : Utf8.encode (controlDigits c.toNat) =
          [digitByte (c.toNat / 16), digitByte (c.toNat % 16)] := by
        rw [Utf8.encode, controlDigits, String.toList_ofList, List.flatMap_cons,
          List.flatMap_singleton, encodeChar_digit _ (by omega), encodeChar_digit _ (by omega)]
        rfl
      rw [Utf8.encode_append, hdigits]
      rfl
    · have := scanEscape_control h rest
      rwa [← hlow] at this
  · next hquote hslash _ _ _ _ _ hcontrol =>
    refine .inl ⟨by simp [Utf8.encode, Char.toString], fun b hb => ?_⟩
    rw [isPlain_iff]
    by_cases hlow : c.toNat < 128
    · rw [Utf8.encodeChar_low hlow, List.mem_singleton] at hb
      have hval : b.toNat = c.toNat := by rw [hb, Utf8.toNat_ofNat (by omega)]
      have h34 : c.toNat ≠ 34 := fun h => hquote (named h)
      have h92 : c.toNat ≠ 92 := fun h => hslash (named h)
      omega
    · have := Utf8.encodeChar_high (by omega) hb
      omega

/-- Bytes that mean nothing are passed over. -/
theorem scanContent_plain {p : Bytes} (hp : ∀ b ∈ p, isPlain b = true) (fuel : Nat) (b : Bytes) :
    scanContent (fuel + 1) (p ++ b) =
      (scanContent (fuel + 1) b).map fun (content, rest) => (p ++ content, rest) := by
  simp only [scanContent, List.takeWhile_append_of_pos hp, List.dropWhile_append_of_pos hp]
  split
  · rfl
  · split
    · rfl
    · split
      · simp only [bind, Except.bind]
        split
        · rfl
        · split
          · rfl
          · simp only [Except.map, List.append_assoc]
      · rfl

theorem scanContent_write (cs : List Char) (rest : Bytes) {fuel : Nat} (h : cs.length < fuel) :
    scanContent fuel (cs.flatMap (fun c => Utf8.encode (escapedChar c)) ++ 34 :: rest) =
      .ok (cs.flatMap encodeChar, rest) := by
  obtain ⟨fuel, rfl⟩ : ∃ n, fuel = n + 1 := ⟨fuel - 1, by omega⟩
  induction cs generalizing fuel with
  | nil => rfl
  | cons c cs ih =>
    rw [List.length_cons] at h
    rw [List.flatMap_cons, List.flatMap_cons, List.append_assoc]
    obtain ⟨hself, hplain⟩ | ⟨tail, hescape, hscan⟩ := escapedChar_cases c
    · rw [hself, scanContent_plain hplain, ih fuel (by omega)]
      rfl
    · obtain ⟨fuel, rfl⟩ : ∃ n, fuel = n + 1 := ⟨fuel - 1, by omega⟩
      rw [hescape, List.cons_append, scanContent]
      simp only [List.takeWhile_cons, List.dropWhile_cons, show isPlain 92 = false from rfl]
      show (scanEscape (tail ++ _)).bind _ = _
      rw [hscan]
      show (scanContent (fuel + 1) _).bind _ = _
      rw [ih fuel (by omega)]
      rfl

/-- What stands between the marks of a string. -/
def contentOf (s : String) : Bytes := s.toList.flatMap fun c => Utf8.encode (escapedChar c)

theorem encode_writeText (s : String) : Utf8.encode (writeText s) = 34 :: (contentOf s ++ [34]) := by
  rw [writeText, Utf8.encode_append, Utf8.encode_append, Utf8.encode_join, List.flatMap_map]
  rfl

theorem length_contentOf (s : String) : s.toList.length ≤ (contentOf s).length := by
  have hsome (c : Char) : 1 ≤ (Utf8.encode (escapedChar c)).length := by
    obtain ⟨hself, -⟩ | ⟨tail, hescape, -⟩ := escapedChar_cases c
    · obtain ⟨a, tail, hbytes, -⟩ := Utf8.step_encodeChar c
      rw [hself, hbytes]
      exact Nat.succ_pos _
    · rw [hescape]
      exact Nat.succ_pos _
  unfold contentOf
  induction s.toList with
  | nil => exact Nat.le_refl 0
  | cons c cs ih =>
    have := hsome c
    rw [List.flatMap_cons, List.length_append, List.length_cons]
    omega

/-- **A string that is written is read back**, from behind its opening mark. -/
theorem scanString_write (s : String) (rest : Bytes) :
    scanString (contentOf s ++ 34 :: rest) = .ok (s, rest) := by
  have hlength := length_contentOf s
  have hscan : scanContent ((contentOf s ++ 34 :: rest).length + 1) (contentOf s ++ 34 :: rest) =
      .ok (Utf8.encode s, rest) :=
    scanContent_write s.toList rest (by rw [List.length_append]; omega)
  rw [scanString, hscan]
  simp only [bind, Except.bind, Utf8.decode_encode]

/-! ### Numbers -/

theorem isDigit_digit : ∀ n < 10, isDigit (digitByte n) = true := by
  decide

theorem digitValue_digit : ∀ n < 10, digitValue (digitByte n) = n := by
  decide

theorem digit_zero : ∀ n < 10, digitByte n = 48 → n = 0 := by
  decide

theorem encode_repr_of_lt {n : Nat} (h : n < 10) : Utf8.encode n.repr = [digitByte n] := by
  rw [Utf8.encode, Nat.toList_repr, Nat.toDigits_of_lt_base h, List.flatMap_singleton,
    encodeChar_digit n (by omega)]

theorem encode_repr_of_le {n : Nat} (h : 10 ≤ n) :
    Utf8.encode n.repr = Utf8.encode (n / 10).repr ++ [digitByte (n % 10)] := by
  rw [Utf8.encode, Nat.toList_repr, Nat.toDigits_of_base_le (by decide) h, List.flatMap_append,
    List.flatMap_singleton, encodeChar_digit _ (by omega), Utf8.encode, Nat.toList_repr]

/-- The digits of a number are read one onto the other. -/
theorem scan_repr (n : Nat) :
    ∃ b tail, Utf8.encode n.repr = b :: tail ∧ isDigit b = true ∧ (b = 48 → n = 0 ∧ tail = []) ∧
      ∀ max count rest, n ≤ max → ∃ count',
        scanDigits max (digitValue b) count (tail ++ rest) = scanDigits max n count' rest := by
  induction n using Nat.strongRecOn with
  | ind n ih =>
    by_cases hsmall : n < 10
    · refine ⟨digitByte n, [], encode_repr_of_lt hsmall, isDigit_digit n hsmall,
        fun h => ⟨digit_zero n hsmall h, rfl⟩, fun max count rest _ => ⟨count, ?_⟩⟩
      rw [digitValue_digit n hsmall, List.nil_append]
    · obtain ⟨b, tail, hbytes, hdigit, hzero, hscan⟩ := ih (n / 10) (by omega)
      refine ⟨b, tail ++ [digitByte (n % 10)], ?_, hdigit, fun h => ?_, fun max count rest h => ?_⟩
      · rw [encode_repr_of_le (by omega), hbytes, List.cons_append]
      · have := (hzero h).1
        omega
      · have hlast : n % 10 < 10 := by omega
        obtain ⟨count', hfront⟩ := hscan max count (digitByte (n % 10) :: rest) (by omega)
        refine ⟨count' + 1, ?_⟩
        rw [List.append_assoc, List.singleton_append, hfront, scanDigits, isDigit_digit _ hlast,
          digitValue_digit _ hlast, show n / 10 * 10 + n % 10 = n by omega]
        simp [h]

/-- Whether a number ends where these bytes follow it. -/
def EndsNumber : Bytes → Prop
  | [] => True
  | b :: _ => isDigit b = false ∧ b ≠ 46 ∧ b ≠ 101 ∧ b ≠ 69

section Numbers
variable {rest : Bytes} (hrest : EndsNumber rest)
include hrest

theorem startsWithDigit_of_ends : startsWithDigit rest = false := by
  cases rest with
  | nil => rfl
  | cons b rest => exact hrest.1

theorem scanDigits_of_ends (max n count : Nat) : scanDigits max n count rest = (n, count, rest) := by
  cases rest with
  | nil => rfl
  | cons b rest => rw [scanDigits, hrest.1]; rfl

theorem scanIntegerEnd_of_ends (negative : Bool) (n : Nat) :
    scanIntegerEnd negative n rest =
      if !negative then .ok (.integer n, rest)
      else if 1 ≤ n && n ≤ 0x8000000000000000 then .ok (.integer (-(n : Int)), rest)
      else .ok (.float (-n.toUInt64.toFloat), rest) := by
  have hexponent : startsExponent rest = false := by
    cases rest with
    | nil => rfl
    | cons b rest =>
      have := hrest.2.2
      simp [startsExponent, this.1, this.2]
  unfold scanIntegerEnd
  split
  · exact absurd rfl hrest.2.1
  · rw [hexponent]
    rfl

theorem scanNumber_repr (negative : Bool) {n : Nat} (h : n ≤ maxWord64) :
    scanNumber negative (Utf8.encode n.repr ++ rest) = scanIntegerEnd negative n rest := by
  obtain ⟨b, tail, hbytes, hdigit, hzero, hscan⟩ := scan_repr n
  rw [hbytes, List.cons_append, scanNumber]
  split
  · next hb =>
    obtain ⟨rfl, rfl⟩ := hzero hb
    rw [List.nil_append, startsWithDigit_of_ends hrest]
    rfl
  · obtain ⟨count, hcount⟩ := hscan maxWord64 0 rest h
    rw [hcount, scanDigits_of_ends hrest]
    show (if startsWithDigit rest = true then _ else _) = _
    rw [startsWithDigit_of_ends hrest]
    rfl

/-- **An integer that is written is read back** where nothing behind it goes on with it. -/
theorem readInt_write (k : IntKind) (w : k.Word) :
    readInt k (Utf8.encode (toString (k.toInt w)) ++ rest) = .ok (w, rest) := by
  have hrange : -(2 ^ 63) ≤ k.toInt w ∧ k.toInt w < 2 ^ 64 := by
    have hnat := w.isLt
    have hlow := BitVec.le_toInt w
    have hhigh := BitVec.toInt_lt (x := w)
    cases k <;> simp only [IntKind.toInt, IntKind.signed, IntKind.bits, IntKind.size] at * <;>
      constructor <;> simp at * <;> omega
  have hfits : fitted k (.integer (k.toInt w)) rest = .ok (w, rest) := by
    simp only [fitted, IntKind.ofInt?_toInt]
  generalize k.toInt w = i at hrange hfits ⊢
  have hmax : maxWord64 = 2 ^ 64 - 1 := rfl
  rw [Int.toString_eq_repr, Int.repr_eq_if]
  split
  · next hsign =>
    obtain ⟨b, tail, hbytes, hdigit, -, -⟩ := scan_repr i.toNat
    have hnumber := scanNumber_repr hrest false (show i.toNat ≤ maxWord64 by omega)
    rw [scanIntegerEnd_of_ends hrest, hbytes, List.cons_append] at hnumber
    have hminus : b ≠ 45 := fun h => by
      rw [h] at hdigit
      cases hdigit
    rw [hbytes, List.cons_append, readInt, onNext_of_not_blank (isBlank_digit hdigit),
      if_neg hminus, if_pos hdigit, hnumber]
    show fitted k (.integer i.toNat) rest = _
    rw [Int.toNat_of_nonneg hsign, hfits]
  · next hsign =>
    have hnumber := scanNumber_repr hrest true (show (-i).toNat ≤ maxWord64 by omega)
    have hbounds : (1 ≤ (-i).toNat && (-i).toNat ≤ 0x8000000000000000) = true := by
      simp only [Bool.and_eq_true, decide_eq_true_eq]
      omega
    rw [scanIntegerEnd_of_ends hrest, hbounds] at hnumber
    rw [Utf8.encode_append]
    show (scanNumber true (Utf8.encode (-i).toNat.repr ++ rest)).bind _ = _
    rw [hnumber]
    show fitted k (.integer (-((-i).toNat : Int))) rest = _
    rw [Int.toNat_of_nonneg (by omega), Int.neg_neg, hfits]

end Numbers
end RemoteCall.Json
