/-! The small fields of a frame header and their numbers on the wire.

A header names the serializer of its body, the kind of message, a status, and by its
version byte the layout it is written in. Each is a closed type with an `id` for the
wire and an `ofId?` that accepts exactly the ids given out (`ofId?_id`). -/
namespace RemoteCall

/-- How the values in a frame body are written as bytes. -/
inductive Serializer where
  | native
  | json
  | compact
  deriving DecidableEq, Repr, Inhabited

namespace Serializer

def id : Serializer → UInt8
  | native => 0
  | json => 1
  | compact => 2

def ofId? (b : UInt8) : Option Serializer :=
  if b = 0 then some native else if b = 1 then some json else if b = 2 then some compact else none

def name : Serializer → String
  | native => "native"
  | json => "json"
  | compact => "compact"

theorem ofId?_id (s : Serializer) : ofId? s.id = some s := by cases s <;> rfl

end Serializer

/-- What a frame is for. -/
inductive MessageType where
  | request
  | response
  | heartBeat
  | others
  deriving DecidableEq, Repr, Inhabited

namespace MessageType

def id : MessageType → UInt8
  | request => 0
  | response => 1
  | heartBeat => 2
  | others => 3

def ofId? (b : UInt8) : Option MessageType :=
  if b = 0 then some request else if b = 1 then some response
  else if b = 2 then some heartBeat else if b = 3 then some others else none

def name : MessageType → String
  | request => "Request"
  | response => "Response"
  | heartBeat => "HeartBeat"
  | others => "Others"

theorem ofId?_id (t : MessageType) : ofId? t.id = some t := by cases t <;> rfl

end MessageType

/-- How the sender of a frame fared. -/
inductive Status where
  | ok
  | badRequest
  | badResponse
  deriving DecidableEq, Repr, Inhabited

namespace Status

def id : Status → UInt8
  | ok => 20
  | badRequest => 40
  | badResponse => 50

def ofId? (b : UInt8) : Option Status :=
  if b = 20 then some ok else if b = 40 then some badRequest
  else if b = 50 then some badResponse else none

def name : Status → String
  | ok => "Ok"
  | badRequest => "BadRequest"
  | badResponse => "BadResponse"

/-- The report on an id that no status has. -/
def unknownMessage (id : UInt8) : String :=
  s!"No discriminant in enum `MessageStatus` matches the value `{id.toNat}`"

theorem ofId?_id (s : Status) : ofId? s.id = some s := by cases s <;> rfl

end Status

/-- The two arrangements of the header fields. -/
inductive Layout where
  /-- Serializer and message type have a byte each. -/
  | legacy
  /-- Serializer and message type share a byte, and the last byte is reserved. -/
  | packed
  deriving DecidableEq, Repr, Inhabited

namespace Layout

/-- The version byte that announces the layout. -/
def version : Layout → UInt8
  | legacy => 1
  | packed => 2

def ofVersion? (b : UInt8) : Option Layout :=
  if b = 1 then some legacy else if b = 2 then some packed else none

def name : Layout → String
  | legacy => "Legacy"
  | packed => "Packed"

theorem ofVersion?_version (l : Layout) : ofVersion? l.version = some l := by cases l <;> rfl

end Layout

/-! ### Two ids in one byte -/

/-- The serializer id in the high half of a byte and the type id in the low half; the
upper half of either id is lost. -/
def packIds (serializer type : UInt8) : UInt8 := (serializer <<< 4) ||| (type &&& 0x0F)

def serializerHalf (packed : UInt8) : UInt8 := packed >>> 4

def typeHalf (packed : UInt8) : UInt8 := packed &&& 0x0F

theorem serializerHalf_packIds (s : Serializer) (t : MessageType) :
    serializerHalf (packIds s.id t.id) = s.id := by cases s <;> cases t <;> rfl

theorem typeHalf_packIds (s : Serializer) (t : MessageType) :
    typeHalf (packIds s.id t.id) = t.id := by cases s <;> cases t <;> rfl

end RemoteCall
