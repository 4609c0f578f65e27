import RemoteCall.Bytes
import RemoteCall.Text.Utf8
import RemoteCall.Value.Shape

/-! The native value format.

Values stand one after another without names or gaps. Integers have their full width,
least significant byte first; truth values and the marks of options are one byte; texts,
sequences and dictionaries begin with their length as eight bytes; a character is its
UTF-8 bytes. Reading ignores what follows the value. -/
namespace RemoteCall.Native

/-! ### Writing -/

def writeLength (n : Nat) : Bytes := Bytes.ofNatLE 8 n

def writeText (s : String) : Bytes :=
  let b := Utf8.encode s
  writeLength b.length ++ b

mutual

def write {α : Type} : Shape α → α → Bytes
  | .bool, b => [if b then 1 else 0]
  | .int k, w => Bytes.ofNatLE k.size w.toNat
  | .char, c => Utf8.encodeChar c
  | .unit, _ => []
  | .text, s => writeText s
  | .list item, xs => writeLength xs.length ++ xs.flatMap (write item)
  | .option _, none => [0]
  | .option s, some x => 1 :: write s x
  | .dict value, d =>
    writeLength d.length ++ d.flatMap fun (k, v) => writeText k ++ write value v
  | .tuple fields, x => writeFields fields x
  | .record _ _ fields, x => writeFields fields x
  | .choice _, i => Bytes.ofNatLE 4 i.val
  | .via s unwrap _ _, x => write s (unwrap x)

def writeFields {α : Type} : Fields α → α → Bytes
  | .nil, _ => []
  | .cons _ s _ rest, (x, xs) => write s x ++ writeFields rest xs

end

/-! ### Reading -/

/-- Why bytes are not a value of the asked shape. -/
inductive Fault where
  /-- The bytes end inside an integer, a length or a mark. -/
  | endOfFile
  /-- The bytes end inside a text. -/
  | endOfText
  | notUtf8 (fault : Utf8.Fault)
  | badBool (byte : UInt8)
  | badOption (byte : UInt8)
  | badChar
  | badChoice (index : Nat)
  deriving DecidableEq, Repr

def Fault.message : Fault → String
  | endOfFile => "io error: unexpected end of file"
  | endOfText => "io error: "
  | notUtf8 fault => s!"string is not valid utf8: {fault.message}"
  | badBool b => s!"invalid u8 while decoding bool, expected 0 or 1, found {b.toNat}"
  | badOption b => s!"tag for enum is not valid, found {b.toNat}"
  | badChar => "char is not valid"
  | badChoice i => s!"invalid value: integer {i}"

/-- Reads a value off the front of the bytes. -/
abbrev Reader (α : Type) := Bytes → Except Fault (α × Bytes)

def readNat (size : Nat) : Reader Nat := fun b =>
  match b.split? size with
  | some (w, rest) => .ok (Bytes.toNatLE w, rest)
  | none => .error .endOfFile

def readText : Reader String := fun b => do
  let (n, b) ← readNat 8 b
  match b.split? n with
  | none => .error .endOfText
  | some (w, rest) =>
    match Utf8.decode w with
    | .ok s => .ok (s, rest)
    | .error fault => .error (.notUtf8 fault)

/-- The number of bytes that the first byte of a character promises. -/
def charWidth (b : UInt8) : Nat :=
  if b < 0x80 then 1 else if b < 0xC2 then 0 else if b < 0xE0 then 2
  else if b < 0xF0 then 3 else if b < 0xF5 then 4 else 0

def readChar : Reader Char
  | [] => .error .endOfFile
  | b :: rest =>
    match Bytes.split? (charWidth b) (b :: rest) with
    | none => .error .badChar
    | some (w, rest) =>
      match Utf8.decode w with
      | .ok s => match s.toList with
        | [c] => .ok (c, rest)
        | _ => .error .badChar
      | .error _ => .error .badChar

/-- Reads `n` values; a length that the bytes cannot hold ends in a fault, so the
count is taken down no further than the first one. -/
def readMany {α : Type} (one : Reader α) : (n : Nat) → Reader (List α)
  | 0, b => .ok ([], b)
  | n + 1, b => do
    let (x, b) ← one b
    let (xs, b) ← readMany one n b
    .ok (x :: xs, b)

mutual

def read {α : Type} : Shape α → Reader α
  | .bool => fun
    | [] => .error .endOfFile
    | b :: rest =>
      if b = 0 then .ok (false, rest) else if b = 1 then .ok (true, rest)
      else .error (.badBool b)
  | .int k => fun b => do
    let (n, b) ← readNat k.size b
    .ok (BitVec.ofNat k.bits n, b)
  | .char => readChar
  | .unit => fun b => .ok ((), b)
  | .text => readText
  | .list item => fun b => do
    let (n, b) ← readNat 8 b
    readMany (read item) n b
  | .option s => fun
    | [] => .error .endOfFile
    | b :: rest =>
      if b = 0 then .ok (none, rest)
      else if b = 1 then (read s rest).map fun (x, rest) => (some x, rest)
      else .error (.badOption b)
  | .dict value => fun b => do
    let (n, b) ← readNat 8 b
    let entry : Reader (String × _) := fun b => do
      let (k, b) ← readText b
      let (v, b) ← read value b
      .ok ((k, v), b)
    let (entries, b) ← readMany entry n b
    .ok (Dict.ofEntries entries, b)
  | .tuple fields => readFields fields
  | .record _ _ fields => readFields fields
  | .choice variants => fun b => do
    let (i, b) ← readNat 4 b
    if h : i < variants.length then .ok (⟨i, h⟩, b) else .error (.badChoice i)
  | .via s _ wrap _ => fun b => (read s b).map fun (x, rest) => (wrap x, rest)

def readFields {α : Type} : Fields α → Reader α
  | .nil => fun b => .ok ((), b)
  | .cons _ s _ rest => fun b => do
    let (x, b) ← read s b
    let (xs, b) ← readFields rest b
    .ok ((x, xs), b)

end

/-- Bytes left over are ignored. -/
def decode {α : Type} (s : Shape α) (b : Bytes) : Except Fault α := (read s b).map Prod.fst

end RemoteCall.Native
