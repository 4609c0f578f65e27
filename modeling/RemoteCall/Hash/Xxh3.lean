import RemoteCall.Bytes

/-! The 64 bit hash XXH3, with seed zero.

Inputs are hashed in one of six ways by their length; up to 240 bytes are folded
directly, longer ones pass through eight accumulators in stripes of 64 bytes. All words
are read with the least significant byte first, and arithmetic is modulo `2 ^ 64`. -/
namespace RemoteCall.Xxh3

/-! ### Constants -/

def prime32A : UInt64 := 0x9E3779B1
def prime32B : UInt64 := 0x85EBCA77
def prime32C : UInt64 := 0xC2B2AE3D

def prime64A : UInt64 := 0x9E3779B185EBCA87
def prime64B : UInt64 := 0xC2B2AE3D27D4EB4F
def prime64C : UInt64 := 0x165667B19E3779F9
def prime64D : UInt64 := 0x85EBCA77C2B2AE63
def prime64E : UInt64 := 0x27D4EB2F165667C5

def mixerA : UInt64 := 0x165667919E3779F9
def mixerB : UInt64 := 0x9FB21C651E98DF25

/-- The key that every hash without a seed is mixed with. -/
def secret : Bytes :=
  [ 0xb8, 0xfe, 0x6c, 0x39, 0x23, 0xa4, 0x4b, 0xbe, 0x7c, 0x01, 0x81, 0x2c,
    0xf7, 0x21, 0xad, 0x1c, 0xde, 0xd4, 0x6d, 0xe9, 0x83, 0x90, 0x97, 0xdb,
    0x72, 0x40, 0xa4, 0xa4, 0xb7, 0xb3, 0x67, 0x1f, 0xcb, 0x79, 0xe6, 0x4e,
    0xcc, 0xc0, 0xe5, 0x78, 0x82, 0x5a, 0xd0, 0x7d, 0xcc, 0xff, 0x72, 0x21,
    0xb8, 0x08, 0x46, 0x74, 0xf7, 0x43, 0x24, 0x8e, 0xe0, 0x35, 0x90, 0xe6,
    0x81, 0x3a, 0x26, 0x4c, 0x3c, 0x28, 0x52, 0xbb, 0x91, 0xc3, 0x00, 0xcb,
    0x88, 0xd0, 0x65, 0x8b, 0x1b, 0x53, 0x2e, 0xa3, 0x71, 0x64, 0x48, 0x97,
    0xa2, 0x0d, 0xf9, 0x4e, 0x38, 0x19, 0xef, 0x46, 0xa9, 0xde, 0xac, 0xd8,
    0xa8, 0xfa, 0x76, 0x3f, 0xe3, 0x9c, 0x34, 0x3f, 0xf9, 0xdc, 0xbb, 0xc7,
    0xc7, 0x0b, 0x4f, 0x1d, 0x8a, 0x51, 0xe0, 0x4b, 0xcd, 0xb4, 0x59, 0x31,
    0xc8, 0x9f, 0x7e, 0xc9, 0xd9, 0x78, 0x73, 0x64, 0xea, 0xc5, 0xac, 0x83,
    0x34, 0xd3, 0xeb, 0xc3, 0xc5, 0x81, 0xa0, 0xff, 0xfa, 0x13, 0x63, 0xeb,
    0x17, 0x0d, 0xdd, 0x51, 0xb7, 0xf0, 0xda, 0x49, 0xd3, 0x16, 0x55, 0x26,
    0x29, 0xd4, 0x68, 0x9e, 0x2b, 0x16, 0xbe, 0x58, 0x7d, 0x47, 0xa1, 0xfc,
    0x8f, 0xf8, 0xb8, 0xd1, 0x7a, 0xd0, 0x31, 0xce, 0x45, 0xcb, 0x3a, 0x8f,
    0x95, 0x16, 0x04, 0x28, 0xaf, 0xd7, 0xfb, 0xca, 0xbb, 0x4b, 0x40, 0x7e]

/-! ### Words -/

def word64 (b : Bytes) (offset : Nat) : UInt64 :=
  UInt64.ofNat (Bytes.toNatLE ((b.drop offset).take 8))

def word32 (b : Bytes) (offset : Nat) : UInt64 :=
  UInt64.ofNat (Bytes.toNatLE ((b.drop offset).take 4))

def byteAt (b : Bytes) (offset : Nat) : UInt64 := (b.getD offset 0).toUInt64

/-- The word with its bytes in reverse. -/
def swapped (x : UInt64) : UInt64 := UInt64.ofNat (Bytes.toNatBE (Bytes.ofNatLE 8 x.toNat))

def rotated (x : UInt64) (n : UInt64) : UInt64 := (x <<< n) ||| (x >>> (64 - n))

/-- Both halves of the full product, one over the other. -/
def folded (x y : UInt64) : UInt64 :=
  let p := x.toNat * y.toNat
  UInt64.ofNat p ^^^ UInt64.ofNat (p >>> 64)

/-! ### Final mixing -/

def avalanche (h : UInt64) : UInt64 :=
  let h := h ^^^ (h >>> 37)
  let h := h * mixerA
  h ^^^ (h >>> 32)

/-- The stronger mixing of the shortest inputs. -/
def avalanche64 (h : UInt64) : UInt64 :=
  let h := h ^^^ (h >>> 33)
  let h := h * prime64B
  let h := h ^^^ (h >>> 29)
  let h := h * prime64C
  h ^^^ (h >>> 32)

/-! ### Up to 16 bytes -/

def hash0 : UInt64 := avalanche64 (word64 secret 56 ^^^ word64 secret 64)

/-- One to three bytes. -/
def hash3 (b : Bytes) : UInt64 :=
  let n := b.length
  let combined := (byteAt b 0 <<< 16) ||| (byteAt b (n / 2) <<< 24) ||| byteAt b (n - 1)
    ||| (UInt64.ofNat n <<< 8)
  avalanche64 (combined ^^^ (word32 secret 0 ^^^ word32 secret 4))

/-- Four to eight bytes. -/
def hash8 (b : Bytes) : UInt64 :=
  let n := b.length
  let both := word32 b (n - 4) + (word32 b 0 <<< 32)
  let h := both ^^^ (word64 secret 8 ^^^ word64 secret 16)
  let h := h ^^^ rotated h 49 ^^^ rotated h 24
  let h := h * mixerB
  let h := h ^^^ ((h >>> 35) + UInt64.ofNat n)
  let h := h * mixerB
  h ^^^ (h >>> 28)

/-- Nine to sixteen bytes. -/
def hash16 (b : Bytes) : UInt64 :=
  let n := b.length
  let low := word64 b 0 ^^^ (word64 secret 24 ^^^ word64 secret 32)
  let high := word64 b (n - 8) ^^^ (word64 secret 40 ^^^ word64 secret 48)
  avalanche (UInt64.ofNat n + swapped low + high + folded low high)

/-! ### Up to 240 bytes -/

/-- Sixteen bytes of the input with sixteen of the secret. -/
def mix16 (b : Bytes) (offset key : Nat) : UInt64 :=
  folded (word64 b offset ^^^ word64 secret key)
    (word64 b (offset + 8) ^^^ word64 secret (key + 8))

def sum (xs : List UInt64) : UInt64 := xs.foldl (· + ·) 0

/-- Up to 128 bytes: as many pairs from both ends as the length asks for. -/
def hash128 (b : Bytes) : UInt64 :=
  let n := b.length
  let pairs := (n - 1) / 32 + 1
  let mixed := (List.range pairs).map fun i =>
    mix16 b (16 * i) (32 * i) + mix16 b (n - 16 * (i + 1)) (32 * i + 16)
  avalanche (UInt64.ofNat n * prime64A + sum mixed)

/-- Up to 240 bytes: eight rounds, then the remaining ones with a shifted key. -/
def hash240 (b : Bytes) : UInt64 :=
  let n := b.length
  let first := (List.range 8).map fun i => mix16 b (16 * i) (16 * i)
  let later := (List.range (n / 16 - 8)).map fun i => mix16 b (16 * (i + 8)) (16 * i + 3)
  let h := avalanche (UInt64.ofNat n * prime64A + sum first)
  avalanche (h + sum later + mix16 b (n - 16) 119)

/-! ### Longer inputs -/

def lanes : List Nat := List.range 8

def startAccumulators : List UInt64 :=
  [prime32C, prime64A, prime64B, prime64C, prime64D, prime32B, prime64E, prime32A]

/-- One stripe. Each word goes to its neighbour's accumulator as it is, and to its own
as the product of its keyed halves. -/
def accumulate (acc : List UInt64) (b : Bytes) (key : Nat) : List UInt64 :=
  lanes.map fun i =>
    let keyed := word64 b (8 * i) ^^^ word64 secret (key + 8 * i)
    let neighbour := word64 b (8 * (if i % 2 = 0 then i + 1 else i - 1))
    acc.getD i 0 + neighbour + (keyed &&& (0xFFFFFFFF : UInt64)) * (keyed >>> 32)

def scramble (acc : List UInt64) : List UInt64 :=
  lanes.map fun i =>
    let x := acc.getD i 0
    ((x ^^^ (x >>> 47)) ^^^ word64 secret (128 + 8 * i)) * prime32A

/-- The first `count` stripes, with the key moving on by eight bytes a stripe. -/
def stripes (acc : List UInt64) (b : Bytes) (count : Nat) : List UInt64 :=
  (List.range count).foldl (fun acc i => accumulate acc (b.drop (64 * i)) (8 * i)) acc

/-- Whole blocks of sixteen stripes, each followed by a scrambling. -/
def blocks (acc : List UInt64) (b : Bytes) (count : Nat) : List UInt64 :=
  (List.range count).foldl (fun acc i => scramble (stripes acc (b.drop (1024 * i)) 16)) acc

def merged (acc : List UInt64) (start : UInt64) : UInt64 :=
  avalanche (start + sum ((List.range 4).map fun i =>
    folded (acc.getD (2 * i) 0 ^^^ word64 secret (11 + 16 * i))
      (acc.getD (2 * i + 1) 0 ^^^ word64 secret (19 + 16 * i))))

def hashLong (b : Bytes) : UInt64 :=
  let n := b.length
  let whole := (n - 1) / 1024
  let rest := b.drop (1024 * whole)
  let acc := blocks startAccumulators b whole
  let acc := stripes acc rest ((rest.length - 1) / 64)
  let acc := accumulate acc (b.drop (n - 64)) 121
  merged acc (UInt64.ofNat n * prime64A)

def hash (b : Bytes) : UInt64 :=
  let n := b.length
  if n = 0 then hash0 else if n ≤ 3 then hash3 b else if n ≤ 8 then hash8 b
  else if n ≤ 16 then hash16 b else if n ≤ 128 then hash128 b
  else if n ≤ 240 then hash240 b else hashLong b

end RemoteCall.Xxh3
