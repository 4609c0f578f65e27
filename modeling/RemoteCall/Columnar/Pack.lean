import RemoteCall.Bytes

/-! Columns of integers in few bytes.

A column of bytes is written after a mark that says how many different values a byte
may have; few enough, and several share one byte as the digits of a number. A column of
wider integers is first cut down to the fewest bytes that hold them all. Either kind
may be written relative to its least value where that saves space. Columns too short to
gain anything have no mark. The number of values is never written; the reader has it
from elsewhere. -/
namespace RemoteCall.Columnar

/-- Takes something off the front of the bytes, or refuses them. -/
abbrev Reader (α : Type) : Type := Bytes → Option (α × Bytes)

/-! ### Digits -/

/-- How many values a digit may have, and how many digits share a byte. -/
structure Density where
  states : Nat
  perByte : Nat

/-- The densities by their code in the mark. -/
def densities : List Density := [⟨256, 1⟩, ⟨16, 2⟩, ⟨6, 3⟩, ⟨4, 4⟩, ⟨3, 5⟩, ⟨2, 8⟩]

/-- The code of the density that holds digits up to `max` in the fewest bytes. -/
def densityCode (max : Int) : Nat :=
  if max ≤ 1 then 5 else if max ≤ 2 then 4 else if max ≤ 3 then 3
  else if max ≤ 5 then 2 else if max ≤ 15 then 1 else 0

/-- The number with the given digits, the first the least significant. -/
def ofDigits (base : Nat) : List Nat → Nat
  | [] => 0
  | d :: ds => d + base * ofDigits base ds

/-- The first `count` digits of a number, the least significant first. -/
def digits (base : Nat) : (count : Nat) → Nat → List Nat
  | 0, _ => []
  | count + 1, n => n % base :: digits base count (n / base)

/-- Digits, as many to the byte as the density allows. -/
def packDigits (d : Density) (ds : List Nat) : Bytes :=
  if _h : ds = [] ∨ d.perByte = 0 then []
  else UInt8.ofNat (ofDigits d.states (ds.take d.perByte)) :: packDigits d (ds.drop d.perByte)
termination_by ds.length
decreasing_by
  have := List.length_pos_iff.2 (fun h => _h (.inl h))
  simp only [List.length_drop]
  omega

/-- The number of bytes that `n` digits take. -/
def Density.bytesFor (d : Density) (n : Nat) : Nat := (n + d.perByte - 1) / d.perByte

def unpackDigits (d : Density) (n : Nat) : Reader (List Nat) := fun b => do
  let (packed, rest) ← b.split? (d.bytesFor n)
  some ((packed.flatMap fun x => digits d.states d.perByte x.toNat).take n, rest)

/-! ### Extremes -/

def least : List Int → Int
  | [] => 0
  | x :: xs => xs.foldl min x

def greatest : List Int → Int
  | [] => 0
  | x :: xs => xs.foldl max x

/-- Columns of at most so many values are never written relative to their least value. -/
def shortColumn : Nat := 5

/-- The mark for a code: even, or odd if the least value comes next. -/
def mark (relative : Bool) (code : Nat) : UInt8 :=
  UInt8.ofNat (if relative then 2 * code - 1 else 2 * code)

/-- The code in a mark, and whether the least value comes next. -/
def unmark (b : UInt8) : Nat × Bool := ((b.toNat + 1) / 2, b.toNat % 2 = 1)

/-! ### Columns of bytes -/

def rawByte (i : Int) : UInt8 := UInt8.ofNat (i % 256).toNat

/-- Columns of at most so many bytes have no mark. -/
def unmarked : Nat := 2

def packWith (code : Nat) (xs : List Int) : Bytes :=
  match densities[code]? with
  | some d => packDigits d (xs.map fun x => (x % 256).toNat)
  | none => []

def packBytes (xs : List Int) : Bytes :=
  if xs.length ≤ unmarked then xs.map rawByte
  else
    let low := least xs
    let plain := if low < 0 then 0 else densityCode (greatest xs)
    let relative := densityCode (greatest xs - low)
    if plain < relative ∧ shortColumn < xs.length then
      mark true relative :: rawByte low :: packWith relative (xs.map (· - low))
    else mark false plain :: packWith plain xs

/-- One byte if it is announced, else zero. -/
def unpackBase (size : Nat) (relative : Bool) : Reader Nat := fun b =>
  if relative then (b.split? size).map fun (w, rest) => (Bytes.toNatLE w, rest)
  else some (0, b)

/-- Reads `n` bytes; sums are reduced to what a byte can hold. -/
def unpackBytes (n : Nat) : Reader (List Nat) := fun b =>
  if n ≤ unmarked then (b.split? n).map fun (w, rest) => (w.map UInt8.toNat, rest)
  else match b with
    | [] => none
    | m :: b => do
      let (code, relative) := unmark m
      let d ← densities[code]?
      let (base, b) ← unpackBase 1 relative b
      let (ds, b) ← unpackDigits d n b
      some (ds.map fun x => (base + x) % 256, b)

/-! ### Columns of wider integers -/

/-- The fewest bytes, a power of two, that hold the number. -/
def bytesNeeded (n : Int) : Nat :=
  if n < 0x100 then 1 else if n < 0x10000 then 2 else if n < 0x100000000 then 4 else 8

/-- How often `size` must be halved to give `part`. -/
def halvings (size part : Nat) : Nat := Nat.log2 (size / part)

def rawWord (size : Nat) (i : Int) : Bytes := Bytes.ofNatLE size (i % Bytes.capacity size).toNat

/-- Integers as words of `part` bytes. -/
def packParts (part : Nat) (xs : List Int) : Bytes :=
  if part = 1 then packBytes xs else xs.flatMap (rawWord part)

/-- The values that are looked at to see whether narrowing is worth trying. -/
def sampled : Nat := 16

/-- A column of integers of `size` bytes, more than one. -/
def packInts (size : Nat) (xs : List Int) : Bytes :=
  let sample := xs.take sampled
  if xs.length * size ≤ 2 then xs.flatMap (rawWord size)
  else if size ≤ bytesNeeded (greatest sample - least sample) then
    mark false 0 :: xs.flatMap (rawWord size)
  else
    let low := least xs
    let plain := if low < 0 then size else bytesNeeded (greatest xs)
    let relative := bytesNeeded (greatest xs - low)
    if relative < plain ∧ shortColumn < xs.length then
      mark true (halvings size relative) :: rawWord size low
        ++ packParts relative (xs.map (· - low))
    else mark false (halvings size plain) :: packParts plain xs

/-- Cuts bytes into `n` words. -/
def words (part : Nat) : (n : Nat) → Bytes → List Nat
  | 0, _ => []
  | n + 1, b => Bytes.toNatLE (b.take part) :: words part n (b.drop part)

/-- Reads `n` words of `part` bytes. -/
def unpackWords (part n : Nat) : Reader (List Nat) := fun b =>
  (b.split? (n * part)).map fun (w, rest) => (words part n w, rest)

def unpackParts (part n : Nat) : Reader (List Nat) :=
  if part = 1 then unpackBytes n else unpackWords part n

/-- Reads `n` integers of `size` bytes; sums are reduced to what they can hold. -/
def unpackInts (size n : Nat) : Reader (List Nat) := fun b =>
  if n * size ≤ 2 then unpackWords size n b
  else match b with
    | [] => none
    | m :: b => do
      let (code, relative) := unmark m
      if code ≤ Nat.log2 size then
        let (base, b) ← unpackBase size relative b
        let (xs, b) ← unpackParts (size >>> code) n b
        some (xs.map fun x => (base + x) % Bytes.capacity size, b)
      else none

/-! ### Columns of lengths -/

/-- Lengths from here on are written apart. -/
def longLength : Nat := 255

def packLengths (ns : List Nat) : Bytes :=
  packBytes (ns.map fun n => (min n longLength : Nat))
    ++ packInts 8 ((ns.filter (longLength ≤ ·)).map Int.ofNat)

/-- Puts the long lengths back where they belong. -/
def restoreLengths : List Nat → List Nat → List Nat
  | [], _ => []
  | n :: ns, longs =>
    if n = longLength then longs.headD n :: restoreLengths ns (longs.drop 1)
    else n :: restoreLengths ns longs

def unpackLengths (n : Nat) : Reader (List Nat) := fun b => do
  let (short, b) ← unpackBytes n b
  let (long, b) ← unpackInts 8 (short.count longLength) b
  some (restoreLengths short long, b)

end RemoteCall.Columnar
