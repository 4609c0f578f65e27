import RemoteCall.Bytes
import RemoteCall.Error

/-! Frame headers.

Every header is 17 bytes: a magic byte, a version byte that picks the layout, then the
fields in that layout's order, integers most significant byte first.

    legacy   magic 1  serializer  type    status  id×8  length×4
    packed   magic 2  serializer|type     status  id×8  length×4  reserved

`Header.read` judges the magic byte first, then the version, and the ids only when all
17 bytes are there. -/
namespace RemoteCall

def magicByte : UInt8 := 0x01

abbrev headerSize : Nat := 17

structure Header where
  magic : UInt8
  /-- Selects the layout, and is kept as it is even if it selects none. -/
  version : UInt8
  serializer : Serializer
  type : MessageType
  status : Status
  /-- Ties a response to its request. -/
  requestId : UInt64
  /-- Number of body bytes that follow. -/
  bodyLength : UInt32
  /-- Written in the packed layout only, and zero when read from the legacy one. -/
  reserved : UInt8
  deriving DecidableEq, Repr, Inhabited

/-! ### Where the fields are -/

namespace Layout

def statusOffset : Layout → Nat
  | legacy => 4
  | packed => 3

def requestIdOffset : Layout → Nat
  | legacy => 5
  | packed => 4

def bodyLengthOffset : Layout → Nat
  | legacy => 13
  | packed => 12

/-- The serializer id byte or half byte. -/
def serializerId (l : Layout) (b : Bytes) : UInt8 :=
  match l with
  | legacy => b.getD 2 0
  | packed => serializerHalf (b.getD 2 0)

def typeId (l : Layout) (b : Bytes) : UInt8 :=
  match l with
  | legacy => b.getD 3 0
  | packed => typeHalf (b.getD 2 0)

def statusId (l : Layout) (b : Bytes) : UInt8 := b.getD l.statusOffset 0

def requestId (l : Layout) (b : Bytes) : UInt64 :=
  UInt64.ofNat (Bytes.toNatBE ((b.drop l.requestIdOffset).take 8))

def bodyLength (l : Layout) (b : Bytes) : UInt32 :=
  UInt32.ofNat (Bytes.toNatBE ((b.drop l.bodyLengthOffset).take 4))

def reserved (l : Layout) (b : Bytes) : UInt8 :=
  match l with
  | legacy => 0
  | packed => b.getD 16 0

end Layout

namespace Header

/-- A fresh header with an empty body. -/
def new (layout : Layout) (serializer : Serializer) (type : MessageType) (status : Status)
    (requestId : UInt64) : Header where
  magic := magicByte
  version := layout.version
  serializer := serializer
  type := type
  status := status
  requestId := requestId
  bodyLength := 0
  reserved := 0

def layout? (h : Header) : Option Layout := Layout.ofVersion? h.version

/-! ### Writing -/

/-- The 17 bytes of a header in the given layout. -/
def bytesIn (h : Header) : Layout → Bytes
  | .legacy =>
    [h.magic, h.version, h.serializer.id, h.type.id, h.status.id]
      ++ Bytes.ofNatBE 8 h.requestId.toNat ++ Bytes.ofNatBE 4 h.bodyLength.toNat
  | .packed =>
    [h.magic, h.version, packIds h.serializer.id h.type.id, h.status.id]
      ++ Bytes.ofNatBE 8 h.requestId.toNat ++ Bytes.ofNatBE 4 h.bodyLength.toNat
      ++ [h.reserved]

@[simp] theorem length_bytesIn (h : Header) (l : Layout) : (h.bytesIn l).length = headerSize := by
  cases l <;> simp [bytesIn, headerSize]

def write (h : Header) : Except FrameError Bytes :=
  match h.layout? with
  | some l => .ok (h.bytesIn l)
  | none => .error (.unsupportedVersion h.version)

/-! ### Reading -/

/-- The layout that the first two bytes announce. -/
def readLayout : Bytes → Except FrameError Layout
  | [] => .error (.truncated headerSize 0)
  | magic :: rest =>
    if magic ≠ magicByte then .error (.badMagic magic)
    else match rest with
      | [] => .error (.truncated headerSize 1)
      | version :: _ =>
        match Layout.ofVersion? version with
        | some l => .ok l
        | none => .error (.unsupportedVersion version)

/-- The fields of a complete header whose layout is known. -/
def fieldsIn (l : Layout) (b : Bytes) : Except FrameError Header :=
  match Serializer.ofId? (l.serializerId b) with
  | none => .error (.unknownSerializer (l.serializerId b))
  | some serializer =>
    match MessageType.ofId? (l.typeId b) with
    | none => .error (.unknownMessageType (l.typeId b))
    | some type =>
      match Status.ofId? (l.statusId b) with
      | none => .error (.unknownStatus (l.statusId b))
      | some status => .ok {
          magic := magicByte
          version := l.version
          serializer := serializer
          type := type
          status := status
          requestId := l.requestId b
          bodyLength := l.bodyLength b
          reserved := l.reserved b }

/-- Reads a header from the front of the bytes. -/
def read (b : Bytes) : Except FrameError Header :=
  match readLayout b with
  | .error e => .error e
  | .ok l =>
    if b.length < headerSize then .error (.truncated headerSize b.length)
    else fieldsIn l b

end Header
end RemoteCall
