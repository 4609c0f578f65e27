/-! Byte strings and the integers written in them.

Frames carry their integers with the most significant byte first, the native value
format with the least significant byte first. Both directions are plain recursion on
the number of bytes, and `toNatBE_ofNatBE` and `toNatLE_ofNatLE` say that reading a
written integer gives it back, reduced to what the width can hold. -/
namespace RemoteCall

abbrev Bytes := List UInt8

namespace Bytes

/-- How many numbers `width` bytes can hold. -/
def capacity (width : Nat) : Nat := Nat.pow 256 width

theorem capacity_succ (w : Nat) : capacity (w + 1) = capacity w * 256 := rfl

/-! ### Most significant byte first -/

/-- The low `width` bytes of `n`, most significant first. -/
def ofNatBE : (width : Nat) → Nat → Bytes
  | 0, _ => []
  | w + 1, n => UInt8.ofNat (n / capacity w) :: ofNatBE w n

/-- The number whose digits in base 256 are the bytes, most significant first. -/
def toNatBE : Bytes → Nat
  | [] => 0
  | b :: rest => b.toNat * capacity rest.length + toNatBE rest

@[simp] theorem length_ofNatBE (w n : Nat) : (ofNatBE w n).length = w := by
  induction w with
  | zero => rfl
  | succ w ih => simp [ofNatBE, ih]

theorem toNatBE_lt (b : Bytes) : toNatBE b < capacity b.length := by
  induction b with
  | nil => simp [toNatBE, capacity]
  | cons x rest ih =>
    have hx : x.toNat < 256 := x.toNat_lt
    have : x.toNat * capacity rest.length + capacity rest.length ≤ 256 * capacity rest.length := by
      rw [← Nat.succ_mul]
      exact Nat.mul_le_mul_right _ hx
    simp only [toNatBE, List.length_cons, capacity_succ]
    omega

theorem toNatBE_ofNatBE (w n : Nat) : toNatBE (ofNatBE w n) = n % capacity w := by
  induction w with
  | zero => simp [ofNatBE, toNatBE, capacity, Nat.mod_one]
  | succ w ih =>
    have byte : (UInt8.ofNat (n / capacity w)).toNat = n / capacity w % 256 := by simp
    rw [ofNatBE, toNatBE, length_ofNatBE, ih, byte, capacity_succ, Nat.mod_mul]
    rw [Nat.mul_comm, Nat.add_comm]

/-! ### Least significant byte first -/

/-- The low `width` bytes of `n`, least significant first. -/
def ofNatLE : (width : Nat) → Nat → Bytes
  | 0, _ => []
  | w + 1, n => UInt8.ofNat n :: ofNatLE w (n / 256)

/-- The number whose digits in base 256 are the bytes, least significant first. -/
def toNatLE : Bytes → Nat
  | [] => 0
  | b :: rest => b.toNat + 256 * toNatLE rest

@[simp] theorem length_ofNatLE (w n : Nat) : (ofNatLE w n).length = w := by
  induction w generalizing n with
  | zero => rfl
  | succ w ih => simp [ofNatLE, ih]

theorem toNatLE_ofNatLE (w n : Nat) : toNatLE (ofNatLE w n) = n % capacity w := by
  induction w generalizing n with
  | zero => simp [ofNatLE, toNatLE, capacity, Nat.mod_one]
  | succ w ih =>
    have byte : (UInt8.ofNat n).toNat = n % 256 := by simp
    rw [ofNatLE, toNatLE, ih, byte, capacity_succ, Nat.mul_comm (capacity w), Nat.mod_mul]

/-! ### Cutting -/

/-- The first `n` bytes and the rest, or nothing when there are fewer. -/
def split? (n : Nat) (b : Bytes) : Option (Bytes × Bytes) :=
  if n ≤ b.length then some (b.take n, b.drop n) else none

theorem split?_append (a b : Bytes) : split? a.length (a ++ b) = some (a, b) := by
  simp [split?]

end Bytes
end RemoteCall
