import RemoteCall.Bytes
import RemoteCall.Text.Decimal
import RemoteCall.Text.Quoted

/-! Why a JSON text is not a value of the asked shape, and where.

A fault remembers how many bytes were left when it was found. The report turns that
into a line and a column: the column counts the bytes since the last line break. Two
kinds of place occur. Some faults lie just behind the bytes that were read; others are
found by looking at the next byte, which then counts as well if there is one. -/
namespace RemoteCall.Json

/-- What a text holds where something else was asked for. -/
inductive Found where
  | null
  | bool (b : Bool)
  | integer (i : Int)
  | float (x : Float)
  | string (s : String)
  | sequence
  | map
  deriving DecidableEq, Repr

/-- Numbers in reports stay positional from five zeros behind the point up to sixteen
places in front of it. -/
def reportedNumber : Decimal.Notation := ⟨16, -5⟩

def Found.message : Found → String
  | null => "null"
  | bool b => s!"boolean `{b}`"
  | integer i => s!"integer `{i}`"
  | float x => s!"floating point `{Decimal.text reportedNumber x}`"
  | string s => s!"string {Text.quoted s}"
  | sequence => "sequence"
  | map => "map"

inductive Problem where
  | endOfValue
  | endOfList
  | endOfObject
  | endOfString
  | expectedValue
  | expectedIdent
  | expectedColon
  | expectedListEnd
  | expectedObjectEnd
  | trailingComma
  | trailingCharacters
  | keyNotString
  | invalidNumber
  | numberOutOfRange
  | invalidEscape
  | controlCharacter
  | loneSurrogate
  | endOfHexEscape
  | invalidCodePoint
  | invalidType (found : Found) (expected : String)
  | invalidValue (found : Found) (expected : String)
  | invalidLength (length : Nat) (expected : String)
  | unknownVariant (variant : String) (variants : List String)
  | missingField (name : String)
  | duplicateField (name : String)
  deriving DecidableEq, Repr

/-- A list of names to choose from, in words. -/
def oneOf (names : List String) : String :=
  let ticked (s : String) := "`" ++ s ++ "`"
  match names with
  | [] => "there are no variants"
  | [a] => "expected " ++ ticked a
  | [a, b] => "expected " ++ ticked a ++ " or " ++ ticked b
  | _ => "expected one of " ++ ", ".intercalate (names.map ticked)

def Problem.message : Problem → String
  | endOfValue => "EOF while parsing a value"
  | endOfList => "EOF while parsing a list"
  | endOfObject => "EOF while parsing an object"
  | endOfString => "EOF while parsing a string"
  | expectedValue => "expected value"
  | expectedIdent => "expected ident"
  | expectedColon => "expected `:`"
  | expectedListEnd => "expected `,` or `]`"
  | expectedObjectEnd => "expected `,` or `\x7d`"
  | trailingComma => "trailing comma"
  | trailingCharacters => "trailing characters"
  | keyNotString => "key must be a string"
  | invalidNumber => "invalid number"
  | numberOutOfRange => "number out of range"
  | invalidEscape => "invalid escape"
  | controlCharacter => "control character (\\u0000-\\u001F) found while parsing a string"
  | loneSurrogate => "lone leading surrogate in hex escape"
  | endOfHexEscape => "unexpected end of hex escape"
  | invalidCodePoint => "invalid unicode code point"
  | invalidType found expected => s!"invalid type: {found.message}, expected {expected}"
  | invalidValue found expected => s!"invalid value: {found.message}, expected {expected}"
  | invalidLength n expected => s!"invalid length {n}, expected {expected}"
  | unknownVariant v variants => s!"unknown variant `{v}`, {oneOf variants}"
  | missingField name => s!"missing field `{name}`"
  | duplicateField name => s!"duplicate field `{name}`"

/-! ### Places -/

structure Fault where
  problem : Problem
  /-- How many bytes of the text lie behind the place of the fault. -/
  left : Nat
  deriving DecidableEq, Repr

/-- A fault just in front of the given rest of the text. -/
def Fault.before (rest : Bytes) (p : Problem) : Fault := ⟨p, rest.length⟩

/-- A fault that the next byte shows; that byte, if any, counts as read. -/
def Fault.peeking (rest : Bytes) (p : Problem) : Fault := ⟨p, rest.length - 1⟩

/-- The line of a place, from one, and its column, from zero. -/
def position (text : Bytes) (left : Nat) : Nat × Nat :=
  let read := text.take (text.length - left)
  (read.count 10 + 1, (read.reverse.takeWhile (· ≠ 10)).length)

/-- The report on a fault in a text. -/
def Fault.report (text : Bytes) (f : Fault) : String :=
  let (line, column) := position text f.left
  s!"{f.problem.message} at line {line} column {column}"

end RemoteCall.Json
