import RemoteCall.Json.Scan

/-! Passing over a JSON value that nobody asked for.

Only its form is judged: numbers may be as large as they like and strings need not be
text. Brackets may nest to any depth, since the open ones are kept in a list. -/
namespace RemoteCall.Json

/-! ### Scalars -/

def skipExponent (b : Bytes) : Except Fault Bytes :=
  let digits := match b.drop 1 with
    | c :: rest => if c = 43 || c = 45 then rest else c :: rest
    | [] => []
  if startsWithDigit digits then .ok (skipDigits digits)
  else .error (.before (digits.drop 1) .invalidNumber)

def skipNumberEnd (b : Bytes) : Except Fault Bytes :=
  if startsExponent b then skipExponent b else .ok b

/-- What comes after the digits in front of the point. -/
def skipFraction : Bytes → Except Fault Bytes
  | 46 :: rest =>
    if startsWithDigit rest then skipNumberEnd (skipDigits rest)
    else .error (.peeking rest .invalidNumber)
  | b => skipNumberEnd b

/-- A number, after its sign. -/
def skipNumber : Bytes → Except Fault Bytes
  | [] => .error (.before [] .invalidNumber)
  | c :: rest =>
    if c = 48 then
      if startsWithDigit rest then .error (.peeking rest .invalidNumber) else skipFraction rest
    else if isDigit c then skipFraction (skipDigits rest)
    else .error (.before rest .invalidNumber)

def skipEscape : Bytes → Except Fault Bytes
  | [] => .error (.before [] .endOfString)
  | letter :: rest =>
    if (escapedByte? letter).isSome then .ok rest
    else if letter = 117 then (scanHex4 rest).map Prod.snd
    else .error (.before rest .invalidEscape)

/-- The content of a string and its closing quotation mark. -/
def skipContent : (fuel : Nat) → Bytes → Except Fault Bytes
  | 0, b => .error (.before b .endOfString)
  | fuel + 1, b =>
    match b.dropWhile isPlain with
    | [] => .error (.before [] .endOfString)
    | c :: rest =>
      if c = 34 then .ok rest
      else if c = 92 then do
        let rest ← skipEscape rest
        skipContent fuel rest
      else .error (.before (c :: rest) .controlCharacter)

def skipString (b : Bytes) : Except Fault Bytes := skipContent (b.length + 1) b

/-! ### Brackets -/

inductive Bracket where
  | list
  | object
  deriving DecidableEq

def Bracket.closing : Bracket → UInt8
  | list => 93
  | object => 125

def Bracket.expectedEnd : Bracket → Problem
  | list => .expectedListEnd
  | object => .expectedObjectEnd

def Bracket.endOf : Bracket → Problem
  | list => .endOfList
  | object => .endOfObject

/-- The colon behind a key. -/
def scanColon (b : Bytes) : Except Fault Bytes :=
  match skipBlanks b with
  | [] => .error (.peeking [] .endOfObject)
  | c :: rest => if c = 58 then .ok rest else .error (.peeking (c :: rest) .expectedColon)

/-- What stands in front of an entry: nothing in a list, a key in an object. -/
def skipEntryHead (bracket : Bracket) (b : Bytes) : Except Fault Bytes :=
  match bracket with
  | .list => .ok b
  | .object =>
    match skipBlanks b with
    | [] => .error (.peeking [] .endOfObject)
    | c :: rest =>
      if c = 34 then do
        let rest ← skipString rest
        scanColon rest
      else .error (.peeking (c :: rest) .keyNotString)

/-- What to do next inside brackets. -/
inductive Inside where
  /-- A value comes next, inside these brackets, the innermost first. -/
  | value (opened : List Bracket) (rest : Bytes)
  | done (rest : Bytes)

/-- Goes from the end of a value, or from just behind an opening bracket if `fresh`, to
the next value or to the end of the outermost brackets. -/
def skipBetween : (opened : List Bracket) → (fresh : Bool) → Bytes → Except Fault Inside
  | [], _, b => .ok (.done b)
  | bracket :: outer, fresh, b =>
    match skipBlanks b with
    | [] => .error (.peeking [] bracket.endOf)
    | c :: rest =>
      if c = 44 && !fresh then (skipEntryHead bracket rest).map (.value (bracket :: outer))
      else if c = bracket.closing then skipBetween outer false rest
      else if fresh then (skipEntryHead bracket (c :: rest)).map (.value (bracket :: outer))
      else .error (.peeking (c :: rest) bracket.expectedEnd)

/-! ### Values -/

/-- The bracket that the byte opens. -/
def opens? (c : UInt8) : Option Bracket :=
  if c = 91 then some .list else if c = 123 then some .object else none

/-- A value without brackets. -/
def skipScalar (c : UInt8) (rest : Bytes) : Except Fault Bytes :=
  if c = 110 then scanWord ull rest
  else if c = 116 then scanWord rue rest
  else if c = 102 then scanWord alse rest
  else if c = 45 then skipNumber rest
  else if isDigit c then skipNumber (c :: rest)
  else if c = 34 then skipString rest
  else .error (.peeking (c :: rest) .expectedValue)

def skipValues : (fuel : Nat) → (opened : List Bracket) → Bytes → Except Fault Bytes
  | 0, _, b => .error (.peeking b .endOfValue)
  | fuel + 1, opened, b =>
    match skipBlanks b with
    | [] => .error (.peeking [] .endOfValue)
    | c :: rest => do
      let next ← match opens? c with
        | some bracket => skipBetween (bracket :: opened) true rest
        | none => do
          let rest ← skipScalar c rest
          skipBetween opened false rest
      match next with
      | .done rest => .ok rest
      | .value opened rest => skipValues fuel opened rest

/-- One value; every turn takes a byte, so the length of the text bounds the turns. -/
def skipValue (b : Bytes) : Except Fault Bytes := skipValues (b.length + 1) [] b

end RemoteCall.Json
