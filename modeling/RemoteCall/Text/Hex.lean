import RemoteCall.Bytes

/-! Bytes as text, two lowercase hexadecimal digits each. -/
namespace RemoteCall.Hex

def digit (n : Nat) : Char := "0123456789abcdef".toList.getD n '0'

/-- The number that a lowercase digit stands for. -/
def ofDigit? (c : Char) : Option Nat :=
  if '0' ≤ c ∧ c ≤ '9' then some (c.toNat - '0'.toNat)
  else if 'a' ≤ c ∧ c ≤ 'f' then some (c.toNat - 'a'.toNat + 10)
  else none

/-- The two digits of a byte. -/
def byte (b : UInt8) : String := String.ofList [digit (b.toNat / 16), digit (b.toNat % 16)]

def encode (b : Bytes) : String := String.join (b.map byte)

/-- The bytes of pairs of digits. -/
def ofDigits? : List Char → Option Bytes
  | [] => some []
  | [_] => none
  | high :: low :: rest => do
    let h ← ofDigit? high
    let l ← ofDigit? low
    let b ← ofDigits? rest
    some (UInt8.ofNat (h * 16 + l) :: b)

def decode? (s : String) : Option Bytes := ofDigits? s.toList

end RemoteCall.Hex
