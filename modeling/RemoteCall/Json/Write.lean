import RemoteCall.Text.Utf8
import RemoteCall.Value.Shape

/-! Values as JSON text: no blanks, fields in their order, absent values as `null`. -/
namespace RemoteCall.Json

/-- Two hexadecimal digits of a control character. -/
def controlDigits (n : Nat) : String :=
  String.ofList [Nat.digitChar (n / 16), Nat.digitChar (n % 16)]

def escapedChar (c : Char) : String :=
  if c = '"' then "\\\"" else if c = '\\' then "\\\\"
  else if c = '\n' then "\\n" else if c = '\r' then "\\r" else if c = '\t' then "\\t"
  else if c.toNat = 8 then "\\b" else if c.toNat = 12 then "\\f"
  else if c.toNat < 32 then "\\u00" ++ controlDigits c.toNat
  else c.toString

def writeText (s : String) : String := "\"" ++ String.join (s.toList.map escapedChar) ++ "\""

def inBrackets (items : List String) : String := "[" ++ ",".intercalate items ++ "]"

def inBraces (entries : List (String × String)) : String :=
  "\x7b" ++ ",".intercalate (entries.map fun (k, v) => writeText k ++ ":" ++ v) ++ "\x7d"

mutual

def write {α : Type} : Shape α → α → String
  | .bool, b => if b then "true" else "false"
  | .int k, w => toString (k.toInt w)
  | .char, c => writeText c.toString
  | .unit, _ => "null"
  | .text, s => writeText s
  | .list item, xs => inBrackets (xs.map (write item))
  | .option _, none => "null"
  | .option s, some x => write s x
  | .dict value, d => inBraces (d.map fun (k, v) => (k, write value v))
  | .tuple fields, x => inBrackets (writeFields fields x)
  | .record _ _ fields, x => inBraces (fields.names.zip (writeFields fields x))
  | .choice variants, i => writeText (variants.get i)
  | .via s unwrap _ _, x => write s (unwrap x)

def writeFields {α : Type} : Fields α → α → List String
  | .nil, _ => []
  | .cons _ s _ rest, (x, xs) => write s x :: writeFields rest xs

end

def encode {α : Type} (s : Shape α) (x : α) : List UInt8 := Utf8.encode (write s x)

end RemoteCall.Json
