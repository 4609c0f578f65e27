import RemoteCall.Dict

/-! The shapes of the values that cross the wire.

A `Shape α` describes how a value of type `α` is laid out: which numbers, texts,
sequences, options and records it is made of. Every value format of the library is
one function on shapes to write a value and one to read it, so a type joins all
formats at once by having a shape. `Fields` describes the fields of a record in
order; a field may name the value it takes when the text of a record leaves it out. -/
namespace RemoteCall

/-! ### Integers -/

/-- The integer types a peer may use. `usize` is as wide as `u64` and differs in name. -/
inductive IntKind where
  | u8 | u16 | u32 | u64 | usize | i8 | i16 | i32 | i64
  deriving DecidableEq, Repr, Inhabited

namespace IntKind

/-- Width in bytes. -/
def size : IntKind → Nat
  | u8 | i8 => 1
  | u16 | i16 => 2
  | u32 | i32 => 4
  | u64 | usize | i64 => 8

def bits (k : IntKind) : Nat := 8 * k.size

def signed : IntKind → Bool
  | u8 | u16 | u32 | u64 | usize => false
  | i8 | i16 | i32 | i64 => true

def name : IntKind → String
  | u8 => "u8" | u16 => "u16" | u32 => "u32" | u64 => "u64" | usize => "usize"
  | i8 => "i8" | i16 => "i16" | i32 => "i32" | i64 => "i64"

/-- Words of one kind. -/
abbrev Word (k : IntKind) : Type := BitVec k.bits

/-- The number that a word stands for. -/
def toInt (k : IntKind) (w : k.Word) : Int := if k.signed then w.toInt else w.toNat

/-- The word of a number, if the kind holds it. -/
def ofInt? (k : IntKind) (i : Int) : Option k.Word :=
  let w : k.Word := BitVec.ofInt k.bits i
  if k.toInt w = i then some w else none

theorem ofInt?_toInt (k : IntKind) (w : k.Word) : k.ofInt? (k.toInt w) = some w := by
  have : BitVec.ofInt k.bits (k.toInt w) = w := by
    unfold toInt
    split <;> simp
  simp [ofInt?, this]

end IntKind

/-! ### Shapes -/

mutual

/-- How a value is made up. -/
inductive Shape : Type → Type 1 where
  | bool : Shape Bool
  | int (k : IntKind) : Shape k.Word
  | char : Shape Char
  | unit : Shape Unit
  | text : Shape String
  | list {α : Type} (item : Shape α) : Shape (List α)
  | option {α : Type} (some : Shape α) : Shape (Option α)
  | dict {α : Type} (value : Shape α) : Shape (Dict α)
  | tuple {α : Type} (fields : Fields α) : Shape α
  /-- A record of the given name; `path` is the full name of its type. -/
  | record {α : Type} (name path : String) (fields : Fields α) : Shape α
  /-- One of several named alternatives. -/
  | choice (variants : List String) : Shape (Fin variants.length)
  /-- A type whose values are laid out as those of another. -/
  | via {α β : Type} (shape : Shape α) (unwrap : β → α) (wrap : α → β)
      (wrap_unwrap : ∀ b, wrap (unwrap b) = b) : Shape β

/-- The fields of a record, first to last. -/
inductive Fields : Type → Type 1 where
  | nil : Fields Unit
  /-- A field, and what it holds when a text leaves it out. -/
  | cons {α β : Type} (name : String) (shape : Shape α) (absent : Option α)
      (rest : Fields β) : Fields (α × β)

end

namespace Fields

/-- A field that a text must give. -/
abbrev needed {α β : Type} (name : String) (shape : Shape α) (rest : Fields β) :
    Fields (α × β) := .cons name shape none rest

/-- A field with a value to fall back on. -/
abbrev defaulted {α β : Type} (name : String) (shape : Shape α) (value : α)
    (rest : Fields β) : Fields (α × β) := .cons name shape (some value) rest

def count {α : Type} : Fields α → Nat
  | .nil => 0
  | .cons _ _ _ rest => rest.count + 1

def names {α : Type} : Fields α → List String
  | .nil => []
  | .cons name _ _ rest => name :: rest.names

end Fields

namespace Shape

def u8 : Shape UInt8 :=
  .via (.int .u8) UInt8.toBitVec UInt8.ofBitVec (fun _ => rfl)

def u16 : Shape UInt16 :=
  .via (.int .u16) UInt16.toBitVec UInt16.ofBitVec (fun _ => rfl)

def u64 : Shape UInt64 :=
  .via (.int .u64) UInt64.toBitVec UInt64.ofBitVec (fun _ => rfl)

def usize : Shape UInt64 :=
  .via (.int .usize) UInt64.toBitVec UInt64.ofBitVec (fun _ => rfl)

def bytes : Shape (List UInt8) := .list u8

/-- A closed type as a choice of names, one for each of its values. -/
def named {α : Type} [DecidableEq α] (all : List α) (name : α → String)
    (complete : ∀ x, x ∈ all) : Shape α :=
  .via (.choice (all.map name))
    (fun x => ⟨all.idxOf x, by simpa using List.idxOf_lt_length_iff.2 (complete x)⟩)
    (fun i => all.get ⟨i.val, by simpa using i.isLt⟩)
    (fun x => by simp)

/-! ### The names of types -/

mutual

/-- The full name of the type that a peer gives a shape. -/
def typeName {α : Type} : Shape α → String
  | .bool => "bool"
  | .int k => k.name
  | .char => "char"
  | .unit => "()"
  | .text => "alloc::string::String"
  | .list item => "alloc::vec::Vec<" ++ typeName item ++ ">"
  | .option s => "core::option::Option<" ++ typeName s ++ ">"
  | .dict value =>
    "alloc::collections::btree::map::BTreeMap<alloc::string::String, " ++ typeName value ++ ">"
  | .tuple fields => "(" ++ ", ".intercalate (typeNames fields) ++ ")"
  | .record _ path _ => path
  | .choice _ => ""
  | .via s _ _ _ => typeName s

def typeNames {α : Type} : Fields α → List String
  | .nil => []
  | .cons _ s _ rest => typeName s :: typeNames rest

end

end Shape
end RemoteCall
