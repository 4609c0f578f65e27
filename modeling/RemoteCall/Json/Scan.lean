import RemoteCall.Json.Fault
import RemoteCall.Text.Utf8

/-! The small pieces of a JSON text: blanks, words, numbers and strings.

A scanner takes its piece off the front of the bytes, or says what is wrong and where.
Numbers without a point or an exponent are exact as long as they fit 64 bits; all
others become doubles, by one multiplication or division with a power of ten. -/
namespace RemoteCall.Json

/-- Takes something off the front of a text. -/
abbrev Scanner (α : Type) : Type := Bytes → Except Fault (α × Bytes)

/-! ### Blanks and words -/

def isBlank (b : UInt8) : Bool := b = 32 || b = 10 || b = 9 || b = 13

def skipBlanks (b : Bytes) : Bytes := b.dropWhile isBlank

/-- The rest of a word whose first letter has been read. -/
def scanWord : (letters : Bytes) → Bytes → Except Fault Bytes
  | [], b => .ok b
  | _ :: _, [] => .error (.before [] .endOfValue)
  | letter :: letters, b :: rest =>
    if b = letter then scanWord letters rest else .error (.before rest .expectedIdent)

/-- What follows the `n` of `null`. -/
def ull : Bytes := [117, 108, 108]

def rue : Bytes := [114, 117, 101]

def alse : Bytes := [97, 108, 115, 101]

/-! ### Digits -/

def isDigit (b : UInt8) : Bool := 48 ≤ b && b ≤ 57

def digitValue (b : UInt8) : Nat := b.toNat - 48

/-- Whether the next byte is a digit. -/
def startsWithDigit : Bytes → Bool
  | [] => false
  | b :: _ => isDigit b

def skipDigits (b : Bytes) : Bytes := b.dropWhile isDigit

/-- Whether the next byte begins an exponent. -/
def startsExponent : Bytes → Bool
  | [] => false
  | b :: _ => b = 101 || b = 69

/-- Reads digits onto `n` while the number stays at most `max`. The second part of the
result counts them. -/
def scanDigits (max n count : Nat) : Bytes → Nat × Nat × Bytes
  | [] => (n, count, [])
  | b :: rest =>
    if isDigit b && n * 10 + digitValue b ≤ max then
      scanDigits max (n * 10 + digitValue b) (count + 1) rest
    else (n, count, b :: rest)

/-! ### Numbers -/

inductive Number where
  | integer (i : Int)
  | float (x : Float)

def Number.found : Number → Found
  | .integer i => .integer i
  | .float x => .float x

/-- Largest power of ten that is a double. -/
def maxPower : Nat := 308

def powerOfTen (n : Nat) : Float := Float.ofScientific 1 false n

def withSign (negative : Bool) (x : Float) : Float := if negative then -x else x

/-- Divides by `10 ^ n` in steps that a double can hold. -/
def divideByPower : (fuel : Nat) → Float → (n : Nat) → Float
  | 0, x, _ => x
  | fuel + 1, x, n =>
    if n ≤ maxPower then x / powerOfTen n
    else if x == 0 then x
    else divideByPower fuel (x / powerOfTen maxPower) (n - maxPower)

/-- The double nearest to what the digits and the exponent say, up to the rounding of
one operation; what is too large is refused. -/
def assemble (negative : Bool) (significand : Nat) (exponent : Int) (rest : Bytes) :
    Except Fault (Number × Bytes) :=
  let x := significand.toUInt64.toFloat
  if exponent < 0 then
    let n := (-exponent).toNat
    .ok (.float (withSign negative (divideByPower (n / maxPower + 2) x n)), rest)
  else if exponent ≤ maxPower then
    let y := x * powerOfTen exponent.toNat
    if y.isInf then .error (.before rest .numberOutOfRange)
    else .ok (.float (withSign negative y), rest)
  else if x == 0 then .ok (.float (withSign negative x), rest)
  else .error (.before rest .numberOutOfRange)

def maxWord64 : Nat := 0xFFFFFFFFFFFFFFFF

/-- Exponents are counted up to this. -/
def maxExponent : Nat := 0x7FFFFFFF

/-- The digits of an exponent. One too large to count makes the number vanish, or
overflow if it has a significand and the exponent is positive. -/
def scanExponentDigits (negative : Bool) (significand : Nat) (exponent : Int) (down : Bool)
    (b : Bytes) : Except Fault (Number × Bytes) :=
  match b with
  | [] => .error (.before [] .endOfValue)
  | c :: rest =>
    if !isDigit c then .error (.before rest .invalidNumber)
    else
      let (n, _, rest) := scanDigits maxExponent (digitValue c) 0 rest
      if startsWithDigit rest then
        if significand ≠ 0 && !down then .error (.before (rest.drop 1) .numberOutOfRange)
        else .ok (.float (withSign negative 0), skipDigits rest)
      else
        assemble negative significand (if down then exponent - n else exponent + n) rest

/-- An exponent, from its letter on. -/
def scanExponent (negative : Bool) (significand : Nat) (exponent : Int) (b : Bytes) :
    Except Fault (Number × Bytes) :=
  match b.drop 1 with
  | [] => .error (.before [] .endOfValue)
  | c :: rest =>
    if c = 43 then scanExponentDigits negative significand exponent false rest
    else if c = 45 then scanExponentDigits negative significand exponent true rest
    else scanExponentDigits negative significand exponent false (c :: rest)

/-- What comes after the digits of a number that has become a double. -/
def scanFloatEnd (negative : Bool) (significand : Nat) (exponent : Int) (b : Bytes) :
    Except Fault (Number × Bytes) :=
  if startsExponent b then scanExponent negative significand exponent b
  else assemble negative significand exponent b

/-- A fraction, from its point on. Digits past 64 bits are ignored. -/
def scanFraction (negative : Bool) (significand : Nat) (exponent : Int) (b : Bytes) :
    Except Fault (Number × Bytes) :=
  let b := b.drop 1
  let (n, count, rest) := scanDigits maxWord64 significand 0 b
  if startsWithDigit rest then
    scanFloatEnd negative n (exponent - count) (skipDigits rest)
  else if count = 0 then
    .error (.peeking rest (if rest.isEmpty then .endOfValue else .invalidNumber))
  else scanFloatEnd negative n (exponent - count) rest

/-- An integer past 64 bits goes on as a double. -/
def scanLongInteger (negative : Bool) (significand : Nat) (b : Bytes) :
    Except Fault (Number × Bytes) :=
  let rest := skipDigits b
  let exponent : Int := (b.length - rest.length : Nat)
  match rest with
  | 46 :: _ => scanFraction negative significand exponent rest
  | _ => scanFloatEnd negative significand exponent rest

/-- What comes after the digits of an integer that fits 64 bits. Negative zero and what
lies below the signed range become doubles. -/
def scanIntegerEnd (negative : Bool) (n : Nat) (b : Bytes) : Except Fault (Number × Bytes) :=
  match b with
  | 46 :: _ => scanFraction negative n 0 b
  | _ =>
    if startsExponent b then scanExponent negative n 0 b
    else if !negative then .ok (.integer n, b)
    else if 1 ≤ n && n ≤ 0x8000000000000000 then .ok (.integer (-(n : Int)), b)
    else .ok (.float (-n.toUInt64.toFloat), b)

/-- A number, after its sign. -/
def scanNumber (negative : Bool) : Scanner Number
  | [] => .error (.before [] .endOfValue)
  | c :: rest =>
    if c = 48 then
      if startsWithDigit rest then .error (.peeking rest .invalidNumber)
      else scanIntegerEnd negative 0 rest
    else if isDigit c then
      let (n, _, rest) := scanDigits maxWord64 (digitValue c) 0 rest
      if startsWithDigit rest then scanLongInteger negative n rest
      else scanIntegerEnd negative n rest
    else .error (.before rest .invalidNumber)

/-! ### Strings -/

def hexValue? (b : UInt8) : Option Nat :=
  if isDigit b then some (digitValue b)
  else if 97 ≤ b && b ≤ 102 then some (b.toNat - 87)
  else if 65 ≤ b && b ≤ 70 then some (b.toNat - 55)
  else none

/-- Four hexadecimal digits. -/
def scanHex4 : Scanner Nat
  | a :: b :: c :: d :: rest =>
    match hexValue? a, hexValue? b, hexValue? c, hexValue? d with
    | some a, some b, some c, some d => .ok (((a * 16 + b) * 16 + c) * 16 + d, rest)
    | _, _, _, _ => .error (.before rest .invalidEscape)
  | _ => .error (.before [] .endOfString)

def isHighSurrogate (n : Nat) : Bool := 0xD800 ≤ n && n ≤ 0xDBFF

def isLowSurrogate (n : Nat) : Bool := 0xDC00 ≤ n && n ≤ 0xDFFF

/-- One given byte of the second half of a surrogate pair. -/
def scanPairByte (byte : UInt8) : Bytes → Except Fault Bytes
  | [] => .error (.before [] .endOfString)
  | b :: rest => if b = byte then .ok rest else .error (.before rest .endOfHexEscape)

/-- The second half of a surrogate pair. -/
def scanLowSurrogate (high : Nat) (b : Bytes) : Except Fault (Char × Bytes) := do
  let b ← scanPairByte 92 b
  let b ← scanPairByte 117 b
  let (low, b) ← scanHex4 b
  if isLowSurrogate low then
    .ok (Char.ofNat ((high - 0xD800) * 1024 + (low - 0xDC00) + 0x10000), b)
  else .error (.before b .loneSurrogate)

/-- A character given by its number, after the `u`. -/
def scanUnicode (b : Bytes) : Except Fault (Char × Bytes) := do
  let (n, b) ← scanHex4 b
  if isLowSurrogate n then .error (.before b .loneSurrogate)
  else if isHighSurrogate n then scanLowSurrogate n b
  else .ok (Char.ofNat n, b)

/-- The characters with an escape of one letter. -/
def escapedByte? (letter : UInt8) : Option UInt8 :=
  if letter = 34 then some 34 else if letter = 92 then some 92
  else if letter = 47 then some 47 else if letter = 98 then some 8
  else if letter = 102 then some 12 else if letter = 110 then some 10
  else if letter = 114 then some 13 else if letter = 116 then some 9
  else none

/-- An escape, after its backslash. -/
def scanEscape : Scanner Bytes
  | [] => .error (.before [] .endOfString)
  | letter :: rest =>
    match escapedByte? letter with
    | some byte => .ok ([byte], rest)
    | none =>
      if letter = 117 then (scanUnicode rest).map fun (c, rest) => (Utf8.encodeChar c, rest)
      else .error (.before rest .invalidEscape)

def isControl (b : UInt8) : Bool := b < 32

/-- A byte that stands for itself inside a string. -/
def isPlain (b : UInt8) : Bool := b ≠ 34 && b ≠ 92 && !isControl b

/-- The content of a string up to its closing quotation mark. -/
def scanContent : (fuel : Nat) → Scanner Bytes
  | 0, b => .error (.before b .endOfString)
  | fuel + 1, b =>
    let plain := b.takeWhile isPlain
    match b.dropWhile isPlain with
    | [] => .error (.before [] .endOfString)
    | c :: rest =>
      if c = 34 then .ok (plain, rest)
      else if c = 92 then do
        let (byte, rest) ← scanEscape rest
        let (more, rest) ← scanContent fuel rest
        .ok (plain ++ byte ++ more, rest)
      else .error (.before rest .controlCharacter)

/-- A string, after its opening quotation mark. Where its bytes stop being text, the
place of the fault is that far in front of the end. -/
def scanString : Scanner String := fun b => do
  let (content, rest) ← scanContent (b.length + 1) b
  match Utf8.decode content with
  | .ok s => .ok (s, rest)
  | .error fault =>
    .error ⟨.invalidCodePoint, rest.length + (content.length - fault.validUpTo)⟩

end RemoteCall.Json
