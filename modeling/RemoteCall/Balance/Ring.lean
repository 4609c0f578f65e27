import RemoteCall.Hash.Xxh3
import RemoteCall.Instance
import RemoteCall.Text.Utf8

/-! A ring of instances, on which equal parameters find the same instance.

Every candidate stands on the ring of 64 bit words at several points. The parameters of
a call have a point as well, and the candidate at the first point from there on, going
round, is selected. Where two candidates share a point the later one stands. -/
namespace RemoteCall.Balance.Ring

def defaultVirtualNodes : Nat := 100

/-- The parameters as one text, in the order of their names, however they are listed. -/
def canonical (params : List (String × String)) : String :=
  String.join ((Dict.ofEntries params).map fun (name, value) => s!"{name}={value};")

/-- The points of one candidate. -/
def pointsOf (hash : Bytes → UInt64) (virtualNodes : Nat) (i : Instance) : List UInt64 :=
  (List.range virtualNodes).map fun replica => hash (Utf8.encode s!"{i.address}#{replica}")

/-- All candidates with their points. -/
def places (hash : Bytes → UInt64) (virtualNodes : Nat) (candidates : List Instance) :
    List (UInt64 × Instance) :=
  candidates.flatMap fun i => (pointsOf hash virtualNodes i).map fun point => (point, i)

/-- How far it is from one point on to another, going round. -/
def distance (start point : UInt64) : UInt64 := point - start

/-- The nearest candidate from a point on; of several at one point the last. -/
def nearest (start : UInt64) : List (UInt64 × Instance) → Option (UInt64 × Instance)
  | [] => none
  | place :: rest =>
    match nearest start rest with
    | none => some place
    | some best => if distance start place.1 < distance start best.1 then some place else some best

/-- Selects with any hash in place of XXH3. At least one point is used. -/
def selectBy (hash : Bytes → UInt64) (virtualNodes : Nat) (params : List (String × String))
    (candidates : List Instance) : Option Instance :=
  match candidates with
  | [] => none
  | [only] => some only
  | _ =>
    (nearest (hash (Utf8.encode (canonical params)))
      (places hash (max virtualNodes 1) candidates)).map Prod.snd

def select (virtualNodes : Nat) (params : List (String × String)) (candidates : List Instance) :
    Option Instance := selectBy Xxh3.hash virtualNodes params candidates

end RemoteCall.Balance.Ring
