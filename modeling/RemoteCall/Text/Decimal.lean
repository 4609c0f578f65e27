/-! Floating-point numbers as decimal text.

A finite double is an exact rational; the doubles that round to it fill an interval. Of
all decimals in that interval `shortest` takes one with the fewest digits, and of those
the nearest. It tries one digit, two digits, and so on: on each grid only the two
neighbours of the value can be the nearest, so two tests in exact arithmetic decide. -/
namespace RemoteCall.Decimal

/-! ### The exact value -/

/-- A positive double as `num / den`, with the interval of reals that round to it, all
over four times the denominator. -/
structure Exact where
  num : Nat
  den : Nat
  low : Nat
  high : Nat
  /-- The ends of the interval round to the value as well. -/
  closed : Bool

/-- The bit in front of the fraction, which a double leaves out. -/
def leadingBit : Nat := 0x10000000000000

def signBit : Nat := 0x8000000000000000

/-- The fields of the bits of a positive finite double. -/
def exact (bits : Nat) : Exact :=
  let e := bits / leadingBit
  let f := bits % leadingBit
  let m := if e = 0 then f else leadingBit + f
  let scale := max e 1
  let unit := 1 <<< (scale - 1075)
  let den := 1 <<< (1075 - scale)
  { num := m * unit
    den := den
    low := if f = 0 ∧ 1 < e then (4 * m - 1) * unit else (4 * m - 2) * unit
    high := (4 * m + 2) * unit
    closed := m % 2 = 0 }

/-! ### The fewest digits -/

/-- Digits `digits` with the point `point` places from their left end. -/
structure Digits where
  digits : List Nat
  point : Int
  deriving DecidableEq, Repr

def digitsOf (n : Nat) : List Nat := (Nat.toDigits 10 n).map fun c => c.toNat - '0'.toNat

/-- How often a fraction below one must be multiplied by ten before its first digit
stands in front of the point. -/
def leadingZeros (num den : Nat) : (fuel : Nat) → Nat
  | 0 => 0
  | fuel + 1 => if den ≤ num * 10 then 0 else leadingZeros (num * 10) den fuel + 1

/-- The number of places in front of the point. -/
def places (num den : Nat) : Int :=
  if den ≤ num then ((digitsOf (num / den)).length : Int)
  else -((leadingZeros num den 400 : Nat) : Int)

/-- Whether `d` steps of the grid lie in the interval; a step is `up / down`. -/
def Exact.holds (x : Exact) (d up down : Nat) : Bool :=
  let v := 4 * d * up * x.den
  let l := x.low * down
  let h := x.high * down
  if x.closed then l ≤ v && v ≤ h else l < v && v < h

/-- The best decimal with `n` digits, if one rounds to the value. -/
def Exact.withDigits (x : Exact) (k : Int) (n : Nat) : Option Nat :=
  let up := Nat.pow 10 (k - n).toNat
  let down := Nat.pow 10 ((n : Int) - k).toNat
  let d := x.num * down / (x.den * up)
  let below := x.holds d up down
  let above := x.holds (d + 1) up down
  if below && above then
    let gap := 2 * (x.num * down - d * up * x.den)
    if gap < up * x.den then some d
    else if up * x.den < gap then some (d + 1)
    else if d % 2 = 0 then some d else some (d + 1)
  else if below then some d
  else if above then some (d + 1)
  else none

/-- Trailing zeros carry no information. -/
def trimmed (ds : List Nat) : List Nat := (ds.reverse.dropWhile (· = 0)).reverse

def Exact.search (x : Exact) (k : Int) : (n fuel : Nat) → Digits
  | _, 0 => ⟨[0], 1⟩
  | n, fuel + 1 =>
    match x.withDigits k n with
    | some d =>
      let ds := digitsOf d
      ⟨trimmed ds, k + (ds.length : Int) - (n : Int)⟩
    | none => x.search k (n + 1) fuel

/-- The shortest digits of a positive finite double, given by its bits. -/
def shortest (bits : Nat) : Digits :=
  let x := exact bits
  x.search (places x.num x.den) 1 17

/-! ### Text -/

/-- Where a number keeps to positional notation. -/
structure Notation where
  /-- The point may stand at most this far to the right. -/
  maxPoint : Int
  /-- And must stand to the right of this. -/
  minPoint : Int

def digitText (ds : List Nat) : String := String.ofList (ds.map fun d => Char.ofNat (d + '0'.toNat))

def zeros (n : Nat) : String := String.ofList (List.replicate n '0')

/-- The power of ten of a number, its sign always written. -/
def signed (power : Int) : String := if 0 ≤ power then "+" ++ toString power else toString power

/-- Positional with a digit on either side of the point where the notation allows it,
else one digit in front of the point and a signed power of ten. -/
def Digits.text (d : Digits) (f : Notation) : String :=
  let n : Int := d.digits.length
  if n ≤ d.point ∧ d.point ≤ f.maxPoint then
    digitText d.digits ++ zeros (d.point - n).toNat ++ ".0"
  else if 0 < d.point ∧ d.point ≤ f.maxPoint then
    digitText (d.digits.take d.point.toNat) ++ "." ++ digitText (d.digits.drop d.point.toNat)
  else if f.minPoint < d.point ∧ d.point ≤ 0 then
    "0." ++ zeros (-d.point).toNat ++ digitText d.digits
  else
    let power := signed (d.point - 1)
    match d.digits with
    | [one] => digitText [one] ++ "e" ++ power
    | ds => digitText (ds.take 1) ++ "." ++ digitText (ds.drop 1) ++ "e" ++ power

/-- The text of a finite double. -/
def text (f : Notation) (x : Float) : String :=
  let bits := x.toBits.toNat
  let magnitude := bits % signBit
  let sign := if signBit ≤ bits then "-" else ""
  if magnitude = 0 then sign ++ "0.0" else sign ++ (shortest magnitude).text f

end RemoteCall.Decimal
