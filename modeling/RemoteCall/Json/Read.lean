import RemoteCall.Json.Skip
import RemoteCall.Json.Write

/-! Values out of JSON text, as a shape directs.

Records may be written as objects, in any order and with fields nobody knows, or as
lists of their fields in order. A field left out takes its default, an optional one is
absent. A problem with the contents of brackets as a whole (a missing or repeated
field, too few elements) is placed where the reading of the brackets ends. -/
namespace RemoteCall.Json

/-! ### Something else than asked for -/

/-- Reads on far enough to say what stands in place of the expected value. -/
def mismatch {α : Type} (expected : String) (c : UInt8) (rest : Bytes) : Except Fault α := do
  let wrong (found : Found) (rest : Bytes) : Except Fault α :=
    .error (.before rest (.invalidType found expected))
  if c = 110 then wrong .null (← scanWord ull rest)
  else if c = 116 then wrong (.bool true) (← scanWord rue rest)
  else if c = 102 then wrong (.bool false) (← scanWord alse rest)
  else if c = 45 then
    let (n, rest) ← scanNumber true rest
    wrong n.found rest
  else if isDigit c then
    let (n, rest) ← scanNumber false (c :: rest)
    wrong n.found rest
  else if c = 34 then
    let (s, rest) ← scanString rest
    wrong (.string s) rest
  else if c = 91 then wrong .sequence (c :: rest)
  else if c = 123 then wrong .map (c :: rest)
  else .error (.peeking (c :: rest) .expectedValue)

/-- Looks at the next byte that is not blank. -/
def onNext {α : Type} (b : Bytes) (f : UInt8 → Scanner α) : Except Fault (α × Bytes) :=
  match skipBlanks b with
  | [] => .error (.peeking [] .endOfValue)
  | c :: rest => f c rest

/-! ### Scalars -/

def readBool : Scanner Bool := fun b => onNext b fun c rest =>
  if c = 116 then (scanWord rue rest).map fun rest => (true, rest)
  else if c = 102 then (scanWord alse rest).map fun rest => (false, rest)
  else mismatch "a boolean" c rest

/-- An integer that the kind holds. -/
def fitted (k : IntKind) : Number → Bytes → Except Fault (k.Word × Bytes)
  | .integer i, rest =>
    match k.ofInt? i with
    | some w => .ok (w, rest)
    | none => .error (.before rest (.invalidValue (.integer i) k.name))
  | .float x, rest => .error (.before rest (.invalidType (.float x) k.name))

def readInt (k : IntKind) : Scanner k.Word := fun b => onNext b fun c rest =>
  if c = 45 then do
    let (n, rest) ← scanNumber true rest
    fitted k n rest
  else if isDigit c then do
    let (n, rest) ← scanNumber false (c :: rest)
    fitted k n rest
  else mismatch k.name c rest

def readUnit : Scanner Unit := fun b => onNext b fun c rest =>
  if c = 110 then (scanWord ull rest).map fun rest => ((), rest) else mismatch "unit" c rest

def readTextAs (expected : String) : Scanner String := fun b => onNext b fun c rest =>
  if c = 34 then scanString rest else mismatch expected c rest

def readChar : Scanner Char := fun b => do
  let (s, rest) ← readTextAs "a character" b
  match s.toList with
  | [c] => .ok (c, rest)
  | _ => .error (.before rest (.invalidValue (.string s) "a character"))

/-! ### Inside brackets -/

/-- Why the contents of brackets are refused. -/
inductive Refusal where
  | at (fault : Fault)
  /-- A problem with all of the contents, and the text that was not read yet. -/
  | whole (problem : Problem) (rest : Bytes)

/-- Reads contents, which may be refused as a whole. -/
abbrev Contents (α : Type) : Type := Bytes → Except Refusal (α × Bytes)

def lifted {α : Type} : Except Fault α → Except Refusal α
  | .ok x => .ok x
  | .error f => .error (.at f)

/-- Goes to the next element of a list, if there is one. -/
def nextElement (first : Bool) (b : Bytes) : Except Fault (Bool × Bytes) :=
  match skipBlanks b with
  | [] => .error (.peeking [] .endOfList)
  | c :: rest =>
    if c = 93 then .ok (false, c :: rest)
    else if first then .ok (true, c :: rest)
    else if c = 44 then
      match skipBlanks rest with
      | [] => .error (.peeking [] .endOfValue)
      | d :: rest =>
        if d = 93 then .error (.peeking (d :: rest) .trailingComma) else .ok (true, d :: rest)
    else .error (.peeking (c :: rest) .expectedListEnd)

/-- Goes to the next key of an object, if there is one: just behind its first quotation
mark. -/
def nextKey (first : Bool) (b : Bytes) : Except Fault (Bool × Bytes) :=
  match skipBlanks b with
  | [] => .error (.peeking [] .endOfObject)
  | c :: rest =>
    if c = 125 then .ok (false, c :: rest)
    else if first then
      if c = 34 then .ok (true, rest) else .error (.peeking (c :: rest) .keyNotString)
    else if c = 44 then
      match skipBlanks rest with
      | [] => .error (.peeking [] .endOfValue)
      | d :: rest =>
        if d = 34 then .ok (true, rest)
        else if d = 125 then .error (.peeking (d :: rest) .trailingComma)
        else .error (.peeking (d :: rest) .keyNotString)
    else .error (.peeking (c :: rest) .expectedObjectEnd)

/-- The closing bracket of a list. The second part of a fault is where reading stopped. -/
def closeList (b : Bytes) : Except (Fault × Bytes) Bytes :=
  match skipBlanks b with
  | [] => .error (.peeking [] .endOfList, [])
  | c :: rest =>
    if c = 93 then .ok rest
    else if c = 44 then
      match skipBlanks rest with
      | 93 :: after => .error (.peeking (93 :: after) .trailingComma, 93 :: after)
      | after => .error (.peeking after .trailingCharacters, after)
    else .error (.peeking (c :: rest) .trailingCharacters, c :: rest)

/-- The closing bracket of an object. -/
def closeObject (b : Bytes) : Except (Fault × Bytes) Bytes :=
  match skipBlanks b with
  | [] => .error (.peeking [] .endOfObject, [])
  | c :: rest =>
    if c = 125 then .ok rest
    else if c = 44 then .error (.peeking (c :: rest) .trailingComma, c :: rest)
    else .error (.peeking (c :: rest) .trailingCharacters, c :: rest)

/-- Reads contents and their closing bracket. Contents refused as a whole are closed as
far as possible before the problem is placed. -/
def closing {α : Type} (close : Bytes → Except (Fault × Bytes) Bytes) (contents : Contents α) :
    Scanner α := fun b =>
  match contents b with
  | .ok (x, rest) =>
    match close rest with
    | .ok rest => .ok (x, rest)
    | .error (fault, _) => .error fault
  | .error (.at fault) => .error fault
  | .error (.whole problem rest) =>
    match close rest with
    | .ok rest => .error (.before rest problem)
    | .error (_, rest) => .error (.before rest problem)

/-! ### Lists and dictionaries -/

def readElements {α : Type} (item : Scanner α) : (fuel : Nat) → (first : Bool) → Scanner (List α)
  | 0, _, b => .ok ([], b)
  | fuel + 1, first, b => do
    let (more, b) ← nextElement first b
    if more then
      let (x, b) ← item b
      let (xs, b) ← readElements item fuel false b
      .ok (x :: xs, b)
    else .ok ([], b)

def readList {α : Type} (item : Scanner α) : Scanner (List α) := fun b => onNext b fun c rest =>
  if c = 91 then
    closing closeList (fun b => lifted (readElements item (b.length + 1) true b)) rest
  else mismatch "a sequence" c rest

def readEntries {α : Type} (value : Scanner α) :
    (fuel : Nat) → (first : Bool) → Scanner (List (String × α))
  | 0, _, b => .ok ([], b)
  | fuel + 1, first, b => do
    let (more, b) ← nextKey first b
    if more then
      let (key, b) ← scanString b
      let b ← scanColon b
      let (x, b) ← value b
      let (xs, b) ← readEntries value fuel false b
      .ok ((key, x) :: xs, b)
    else .ok ([], b)

def readDict {α : Type} (value : Scanner α) : Scanner (Dict α) := fun b => onNext b fun c rest =>
  if c = 123 then do
    let (entries, rest) ←
      closing closeObject (fun b => lifted (readEntries value (b.length + 1) true b)) rest
    .ok (Dict.ofEntries entries, rest)
  else mismatch "a map" c rest

/-! ### Choices -/

def variant (variants : List String) (s : String) (rest : Bytes) :
    Except Fault (Fin variants.length × Bytes) :=
  match variants.finIdxOf? s with
  | some i => .ok (i, rest)
  | none => .error (.before rest (.unknownVariant s variants))

/-- A choice is its name, or an object with its name and `null`. An empty object is not a
choice. -/
def readChoice (variants : List String) : Scanner (Fin variants.length) := fun b =>
  onNext b fun c rest =>
    if c = 34 then do
      let (s, rest) ← scanString rest
      variant variants s rest
    else if c = 123 then do
      let (named, rest) ← nextKey true rest
      if !named then .error (.peeking rest .expectedValue)
      let (s, rest) ← scanString rest
      let (i, rest) ← variant variants s rest
      let rest ← scanColon rest
      let ((), rest) ← readUnit rest
      match skipBlanks rest with
      | [] => .error (.before [] .endOfObject)
      | d :: rest =>
        if d = 125 then .ok (i, rest) else .error (.before (d :: rest) .expectedValue)
    else .error (.peeking (c :: rest) .expectedValue)

/-! ### Records -/

/-- The fields of a record that have been read so far. -/
def Slots : {α : Type} → Fields α → Type
  | _, .nil => Unit
  | _, .cons (α := α) _ _ _ rest => Option α × Slots rest

def Slots.empty : {α : Type} → (fields : Fields α) → Slots fields
  | _, .nil => ()
  | _, .cons _ _ _ rest => (none, Slots.empty rest)

/-- The value of a shape that an object need not mention. -/
def optional : {α : Type} → Shape α → Option α
  | _, .option _ => some none
  | _, .via s _ wrap _ => (optional s).map wrap
  | _, _ => none

/-- The record, once the object has ended. -/
def Slots.finish : {α : Type} → (fields : Fields α) → Slots fields → Except Problem α
  | _, .nil, _ => .ok ()
  | _, .cons name s absent rest, slots => do
    let (slot, slots) : Option _ × Slots rest := slots
    let x ← match slot <|> absent <|> optional s with
      | some x => .ok x
      | none => .error (.missingField name)
    let xs ← Slots.finish rest slots
    .ok (x, xs)

/-- The members of an object. `member` reads the value of a field, and is nothing for a
name that is no field; such members are passed over. -/
def readMembers {σ : Type} (member : String → σ → Option (Contents σ)) :
    (fuel : Nat) → (first : Bool) → σ → Contents σ
  | 0, _, slots, b => .ok (slots, b)
  | fuel + 1, first, slots, b => do
    let (more, b) ← lifted (nextKey first b)
    if more then
      let (key, b) ← lifted (scanString b)
      let (slots, b) ← match member key slots with
        | some value => value b
        | none => do
          let b ← lifted (scanColon b)
          let b ← lifted (skipValue b)
          .ok (slots, b)
      readMembers member fuel false slots b
    else .ok (slots, b)

/-- An object with the fields. -/
def readObject {α : Type} (fields : Fields α)
    (member : String → Slots fields → Option (Contents (Slots fields))) : Contents α := fun b => do
  let (slots, b) ← readMembers member (b.length + 1) true (Slots.empty fields) b
  match Slots.finish fields slots with
  | .ok x => .ok (x, b)
  | .error problem => .error (.whole problem b)

/-- How a record of so many fields is announced. -/
def elements (n : Nat) : String := if n = 1 then "1 element" else s!"{n} elements"

/-! ### Every shape -/

mutual

def read {α : Type} : Shape α → Scanner α
  | .bool => readBool
  | .int k => readInt k
  | .char => readChar
  | .unit => readUnit
  | .text => readTextAs "a string"
  | .list item => readList (read item)
  | .option s => fun b =>
    match skipBlanks b with
    | 110 :: rest => (scanWord ull rest).map fun rest => (none, rest)
    | _ => (read s b).map fun (x, rest) => (some x, rest)
  | .dict value => readDict (read value)
  | .tuple fields => fun b => onNext b fun c rest =>
    let expected := s!"a tuple of size {fields.count}"
    if c = 91 then closing closeList (readPositions fields expected 0) rest
    else mismatch expected c rest
  | .record name _ fields => fun b => onNext b fun c rest =>
    let expected := "struct " ++ name
    if c = 91 then
      closing closeList (readPositions fields (expected ++ " with " ++ elements fields.count) 0) rest
    else if c = 123 then closing closeObject (readObject fields (readMember fields)) rest
    else mismatch expected c rest
  | .choice variants => readChoice variants
  | .via s _ wrap _ => fun b => (read s b).map fun (x, rest) => (wrap x, rest)

/-- The elements of a list, one for each field. -/
def readPositions {α : Type} : Fields α → (expected : String) → (index : Nat) → Contents α
  | .nil, _, _ => fun b => .ok ((), b)
  | .cons _ s absent rest, expected, index => fun b => do
    let (more, b) ← lifted (nextElement (index = 0) b)
    if more then
      let (x, b) ← lifted (read s b)
      let (xs, b) ← readPositions rest expected (index + 1) b
      .ok ((x, xs), b)
    else
      match absent with
      | none => .error (.whole (.invalidLength index expected) b)
      | some x =>
        let (xs, b) ← readPositions rest expected (index + 1) b
        .ok ((x, xs), b)

/-- The value of the named field, behind its key. -/
def readMember {α : Type} : (fields : Fields α) → (name : String) → (slots : Slots fields) →
    Option (Contents (Slots fields))
  | .nil, _, _ => none
  | .cons name s _ rest, key, slots =>
    if key = name then
      some fun b =>
        match slots with
        | (some _, _) => .error (.whole (.duplicateField name) b)
        | (none, others) => do
          let b ← lifted (scanColon b)
          let (x, b) ← lifted (read s b)
          .ok ((some x, others), b)
    else
      (readMember rest key slots.2).map fun value b => do
        let (others, b) ← value b
        .ok ((slots.1, others), b)

end

/-- Reads a whole text as one value. -/
def decode {α : Type} (s : Shape α) (text : Bytes) : Except Fault α := do
  let (x, rest) ← read s text
  match skipBlanks rest with
  | [] => .ok x
  | c :: rest => .error (.peeking (c :: rest) .trailingCharacters)

end RemoteCall.Json
