import RemoteCall.Columnar.Codec
import RemoteCall.Error
import RemoteCall.Json.Read
import RemoteCall.Value.Native

/-! Writing and reading values with a serializer chosen at run time. -/
namespace RemoteCall.Serializer

/-- The bytes of a value; writing never fails. -/
def encode {α : Type} : Serializer → Shape α → α → Bytes
  | native => Native.write
  | json => Json.encode
  | compact => Columnar.encode

/-- The value in the bytes, or why there is none of that shape. -/
def decode {α : Type} : Serializer → Shape α → Bytes → Except ValueError α
  | native, s, b =>
    (Native.decode s b).mapError fun fault => .deserialize native (some fault.message)
  | json, s, b =>
    (Json.decode s b).mapError fun fault => .deserialize json (some (fault.report b))
  | compact, s, b =>
    match Columnar.decode s b with
    | some x => .ok x
    | none => .error (.deserialize compact none)

end RemoteCall.Serializer
