import RemoteCall.Columnar.Pack
import RemoteCall.Text.Utf8
import RemoteCall.Value.Shape

/-! The columnar value format.

A value is taken apart into columns, one for each place in its shape where integers,
texts, lengths or marks stand, and the columns are written one after another. All
elements of a sequence share their columns. A single value is a column of one. Bytes
left over are refused, and so is anything cut short; a refusal gives no reason. -/
namespace RemoteCall.Columnar

/-! ### Writing -/

def writeTexts (ss : List String) : Bytes :=
  let bs := ss.map Utf8.encode
  packLengths (bs.map List.length) ++ bs.flatten

def boolDensity : Density := ⟨2, 8⟩

def writeInts (k : IntKind) (xs : List k.Word) : Bytes :=
  let xs := xs.map k.toInt
  if k.size = 1 then packBytes xs else packInts k.size xs

mutual

/-- The columns of several values of one shape. -/
def writeAll {α : Type} : Shape α → List α → Bytes
  | .bool, xs => packDigits boolDensity (xs.map fun x => if x then 1 else 0)
  | .int k, xs => writeInts k xs
  | .char, xs => packInts 4 (xs.map fun c => (c.toNat : Int))
  | .unit, _ => []
  | .text, xs => writeTexts xs
  | .list item, xs => packLengths (xs.map List.length) ++ writeAll item xs.flatten
  | .option s, xs =>
    packBytes (xs.map fun x => if x.isSome then 1 else 0) ++ writeAll s (xs.filterMap id)
  | .dict value, xs =>
    packLengths (xs.map List.length) ++ writeTexts (xs.flatten.map Prod.fst)
      ++ writeAll value (xs.flatten.map Prod.snd)
  | .tuple fields, xs => writeAllFields fields xs
  | .record _ _ fields, xs => writeAllFields fields xs
  | .choice _, xs => packBytes (xs.map fun i => (i.val : Int))
  | .via s unwrap _ _, xs => writeAll s (xs.map unwrap)

def writeAllFields {α : Type} : Fields α → List α → Bytes
  | .nil, _ => []
  | .cons _ s _ rest, xs => writeAll s (xs.map Prod.fst) ++ writeAllFields rest (xs.map Prod.snd)

end

def encode {α : Type} (s : Shape α) (x : α) : Bytes := writeAll s [x]

/-! ### Reading -/

/-- How many elements some lengths make up together. -/
def total (ns : List Nat) : Nat := ns.foldr (· + ·) 0

/-- Cuts a list into pieces of the given lengths. -/
def pieces {α : Type} : List Nat → List α → List (List α)
  | [], _ => []
  | n :: ns, xs => xs.take n :: pieces ns (xs.drop n)

def text? (b : Bytes) : Option String :=
  match Utf8.decode b with
  | .ok s => some s
  | .error _ => none

def readTexts (n : Nat) : Reader (List String) := fun b => do
  let (lengths, b) ← unpackLengths n b
  let (all, b) ← b.split? (total lengths)
  let ss ← (pieces lengths all).mapM text?
  some (ss, b)

def readInts (k : IntKind) (n : Nat) : Reader (List k.Word) := fun b => do
  let (xs, b) ← if k.size = 1 then unpackBytes n b else unpackInts k.size n b
  some (xs.map (BitVec.ofNat k.bits), b)

def char? (n : Nat) : Option Char := if n.isValidChar then some (Char.ofNat n) else none

/-- Whether a mark announces a value. -/
def present? (n : Nat) : Option Bool :=
  if n = 0 then some false else if n = 1 then some true else none

/-- Puts the present values where their marks are. -/
def spread {α : Type} : List Bool → List α → List (Option α)
  | [], _ => []
  | true :: marks, x :: xs => some x :: spread marks xs
  | _ :: marks, xs => none :: spread marks xs

def choice? (count : Nat) (i : Nat) : Option (Fin count) :=
  if h : i < count then some ⟨i, h⟩ else none

mutual

/-- Reads the columns of `n` values of one shape. -/
def readAll {α : Type} : Shape α → (n : Nat) → Reader (List α)
  | .bool, n => fun b => do
    let (ds, b) ← unpackDigits boolDensity n b
    some (ds.map (· = 1), b)
  | .int k, n => readInts k n
  | .char, n => fun b => do
    let (ns, b) ← unpackInts 4 n b
    let cs ← ns.mapM char?
    some (cs, b)
  | .unit, n => fun b => some (List.replicate n (), b)
  | .text, n => readTexts n
  | .list item, n => fun b => do
    let (lengths, b) ← unpackLengths n b
    let (xs, b) ← readAll item (total lengths) b
    some (pieces lengths xs, b)
  | .option s, n => fun b => do
    let (ns, b) ← unpackBytes n b
    let marks ← ns.mapM present?
    let (xs, b) ← readAll s (marks.count true) b
    some (spread marks xs, b)
  | .dict value, n => fun b => do
    let (lengths, b) ← unpackLengths n b
    let (keys, b) ← readTexts (total lengths) b
    let (values, b) ← readAll value (total lengths) b
    some ((pieces lengths (keys.zip values)).map Dict.ofEntries, b)
  | .tuple fields, n => readAllFields fields n
  | .record _ _ fields, n => readAllFields fields n
  | .choice variants, n => fun b => do
    let (ns, b) ← unpackBytes n b
    let is ← ns.mapM (choice? variants.length)
    some (is, b)
  | .via s _ wrap _, n => fun b => do
    let (xs, b) ← readAll s n b
    some (xs.map wrap, b)

def readAllFields {α : Type} : Fields α → (n : Nat) → Reader (List α)
  | .nil, n => fun b => some (List.replicate n (), b)
  | .cons _ s _ rest, n => fun b => do
    let (xs, b) ← readAll s n b
    let (ys, b) ← readAllFields rest n b
    some (xs.zip ys, b)

end

def decode {α : Type} (s : Shape α) (b : Bytes) : Option α :=
  match readAll s 1 b with
  | some ([x], []) => some x
  | _ => none

end RemoteCall.Columnar
