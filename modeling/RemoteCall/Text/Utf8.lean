/-! Text as UTF-8 bytes.

`decode` reads the well-formed byte sequences of the Unicode standard (table 3-7) and
nothing else. Where the bytes stop being text, the fault says how many bytes before it
are text and how many bytes the broken sequence takes: the longest beginning of a
well-formed sequence, at least one byte, or all that is left when the bytes end inside
a sequence that could still have become one. -/
namespace RemoteCall.Utf8

def encodeChar (c : Char) : List UInt8 := String.utf8EncodeChar c

def encode (s : String) : List UInt8 := s.toList.flatMap encodeChar

/-! ### Faults -/

structure Fault where
  /-- Bytes before the fault, all text. -/
  validUpTo : Nat
  /-- Length of the broken sequence, or nothing when the bytes end inside one. -/
  length : Option Nat
  deriving DecidableEq, Repr

def Fault.message (f : Fault) : String :=
  match f.length with
  | some n => s!"invalid utf-8 sequence of {n} bytes from index {f.validUpTo}"
  | none => s!"incomplete utf-8 byte sequence from index {f.validUpTo}"

/-! ### One character -/

/-- A byte that continues a sequence. -/
def isTail (b : UInt8) : Bool := 0x80 ≤ b && b ≤ 0xBF

/-- Which second bytes may follow a first byte of a three byte sequence. -/
def second3 (a b : UInt8) : Bool :=
  if a = 0xE0 then 0xA0 ≤ b && b ≤ 0xBF
  else if a = 0xED then 0x80 ≤ b && b ≤ 0x9F
  else isTail b

/-- Which second bytes may follow a first byte of a four byte sequence. -/
def second4 (a b : UInt8) : Bool :=
  if a = 0xF0 then 0x90 ≤ b && b ≤ 0xBF
  else if a = 0xF4 then 0x80 ≤ b && b ≤ 0x8F
  else isTail b

/-- The outcome at the front of the bytes. -/
inductive Step where
  | char (c : Char) (size : Nat)
  | broken (length : Option Nat)

def low6 (b : UInt8) : Nat := b.toNat % 64

def step2 (a : UInt8) : List UInt8 → Step
  | [] => .broken none
  | b :: _ => if isTail b then .char (Char.ofNat (a.toNat % 32 * 64 + low6 b)) 2 else .broken (some 1)

def step3 (a : UInt8) : List UInt8 → Step
  | [] => .broken none
  | b :: rest =>
    if second3 a b then
      match rest with
      | [] => .broken none
      | c :: _ =>
        if isTail c then .char (Char.ofNat (a.toNat % 16 * 4096 + low6 b * 64 + low6 c)) 3
        else .broken (some 2)
    else .broken (some 1)

def step4 (a : UInt8) : List UInt8 → Step
  | [] => .broken none
  | b :: rest =>
    if second4 a b then
      match rest with
      | [] => .broken none
      | c :: rest =>
        if isTail c then
          match rest with
          | [] => .broken none
          | d :: _ =>
            if isTail d then
              .char (Char.ofNat
                (a.toNat % 8 * 262144 + low6 b * 4096 + low6 c * 64 + low6 d)) 4
            else .broken (some 3)
        else .broken (some 2)
    else .broken (some 1)

/-- Judges the sequence that starts with `a`. -/
def step (a : UInt8) (rest : List UInt8) : Step :=
  if a < 0x80 then .char (Char.ofNat a.toNat) 1
  else if a < 0xC2 then .broken (some 1)
  else if a < 0xE0 then step2 a rest
  else if a < 0xF0 then step3 a rest
  else if a < 0xF5 then step4 a rest
  else .broken (some 1)

/-! ### Whole texts -/

/-- The characters from byte `offset` on; `skip` counts bytes of the current character
still to pass. -/
def chars (offset skip : Nat) : List UInt8 → Except Fault (List Char)
  | [] => .ok []
  | a :: rest =>
    match skip with
    | k + 1 => chars (offset + 1) k rest
    | 0 =>
      match step a rest with
      | .char c size => (chars (offset + 1) (size - 1) rest).map (c :: ·)
      | .broken length => .error ⟨offset, length⟩

def decode (b : List UInt8) : Except Fault String := (chars 0 0 b).map String.ofList

end RemoteCall.Utf8
