import RemoteCall.Dict
import RemoteCall.Error

/-! A store of texts under keys, each for a limited time.

An entry is live as long as its deadline lies in the future. Whatever comes across an
entry that is live no more drops it, so reads never show one. Every dropped entry is
announced: as deleted if it was live when it was deleted, as expired otherwise. The
store keeps all its announcements in order; who listens remembers how many were made
before (`Registry.Watch`).

A store that is offline refuses every operation but `sweep`. -/
namespace RemoteCall.Registry

/-! ### Announcements -/

/-- What became of the entry under a key. -/
inductive Event where
  | deleted (key : String)
  | expired (key : String)
  deriving DecidableEq, Repr

namespace Event

def key : Event → String
  | deleted k => k
  | expired k => k

def text : Event → String
  | deleted k => "deleted " ++ k
  | expired k => "expired " ++ k

end Event

/-- A listener can fall this many announcements behind before it misses some. -/
def eventCapacity : Nat := 1024

/-- How many of some announcements a listener misses who hears them all at once. -/
def missed (events : List Event) : Nat := events.length - eventCapacity

/-! ### The store -/

structure Entry where
  value : String
  /-- The first moment at which the entry is not live any more. -/
  deadline : Nat
  deriving DecidableEq, Repr

def Entry.live (e : Entry) (now : Nat) : Bool := now < e.deadline

structure Store where
  entries : Dict Entry := []
  events : List Event := []
  available : Bool := true
  deriving DecidableEq, Repr

namespace Store

def offline : RegistryError := .unreachable "memory store is offline"

/-- Drops the entry under a key and announces it. -/
def drop (s : Store) (event : Event) : Store :=
  { s with entries := s.entries.erase event.key, events := s.events ++ [event] }

/-- Drops the entry under a key if it is there and live no more; says whether. -/
def expire (s : Store) (now : Nat) (key : String) : Bool × Store :=
  match s.entries.find? key with
  | some e => if e.live now then (false, s) else (true, s.drop (.expired key))
  | none => (false, s)

/-- Drops those of the keys whose entries are live no more, and counts them. -/
def expireAll (s : Store) (now : Nat) : List String → Nat × Store
  | [] => (0, s)
  | key :: rest =>
    let (gone, s) := s.expire now key
    let (n, s) := s.expireAll now rest
    (if gone then n + 1 else n, s)

/-- Runs an operation unless the store is offline. -/
def online {α : Type} (s : Store) (f : α × Store) : Except RegistryError α × Store :=
  if s.available then (.ok f.1, f.2) else (.error offline, s)

def put (s : Store) (now : Nat) (key value : String) (ttl : Nat) :
    Except RegistryError Unit × Store :=
  s.online ((), { s with entries := s.entries.insert key ⟨value, now + ttl⟩ })

def get (s : Store) (now : Nat) (key : String) : Except RegistryError (Option String) × Store :=
  s.online <|
    match s.entries.find? key with
    | some e => if e.live now then (some e.value, s) else (none, (s.expire now key).2)
    | none => (none, s)

/-- Gives a live entry a new deadline; says whether there was one. -/
def refresh (s : Store) (now : Nat) (key : String) (ttl : Nat) :
    Except RegistryError Bool × Store :=
  s.online <|
    match s.entries.find? key with
    | some e =>
      if e.live now then
        (true, { s with entries := s.entries.insert key { e with deadline := now + ttl } })
      else (false, (s.expire now key).2)
    | none => (false, s)

/-- Drops an entry; says whether it was live. -/
def delete (s : Store) (now : Nat) (key : String) : Except RegistryError Bool × Store :=
  s.online <|
    match s.entries.find? key with
    | some e => if e.live now then (true, s.drop (.deleted key)) else (false, s.drop (.expired key))
    | none => (false, s)

/-- Whether a key lies under a root. -/
def under (root key : String) : Bool := root.toList.isPrefixOf key.toList

/-- The live entries whose keys begin with the given text, in order. -/
def scan (s : Store) (now : Nat) (root : String) :
    Except RegistryError (List (String × String)) × Store :=
  let found := s.entries.filter fun (key, _) => under root key
  let (live, dead) := found.partition fun (_, e) => e.live now
  s.online (live.map fun (key, e) => (key, e.value), (s.expireAll now (dead.map Prod.fst)).2)

/-- Drops every entry that is live no more, and counts them. -/
def sweep (s : Store) (now : Nat) : Nat × Store :=
  s.expireAll now ((s.entries.filter fun (_, e) => !e.live now).map Prod.fst)

def setAvailable (s : Store) (available : Bool) : Store := { s with available := available }

/-- The number of entries, live or not. -/
def size (s : Store) : Nat := s.entries.length

/-! ### Operations as values -/

/-- One operation. -/
inductive Op where
  | put (key value : String) (ttl : Nat)
  | get (key : String)
  | refresh (key : String) (ttl : Nat)
  | delete (key : String)
  | scan (root : String)
  | sweep
  | setAvailable (available : Bool)
  deriving DecidableEq, Repr

/-- What an operation has to say. -/
inductive Reply where
  | done
  | value (v : Option String)
  | flag (b : Bool)
  | records (rs : List (String × String))
  | count (n : Nat)
  deriving DecidableEq, Repr

/-- Carries out one operation. -/
def apply (s : Store) (now : Nat) : Op → Except RegistryError Reply × Store
  | .put key value ttl => ((s.put now key value ttl).1.map fun () => .done, (s.put now key value ttl).2)
  | .get key => ((s.get now key).1.map .value, (s.get now key).2)
  | .refresh key ttl => ((s.refresh now key ttl).1.map .flag, (s.refresh now key ttl).2)
  | .delete key => ((s.delete now key).1.map .flag, (s.delete now key).2)
  | .scan root => ((s.scan now root).1.map .records, (s.scan now root).2)
  | .sweep => (.ok (.count (s.sweep now).1), (s.sweep now).2)
  | .setAvailable available => (.ok .done, s.setAvailable available)

/-- Carries out operations up to the first that fails. -/
def applyAll (s : Store) (now : Nat) : List Op → Except RegistryError (List Reply) × Store
  | [] => (.ok [], s)
  | op :: rest =>
    match s.apply now op with
    | (.error e, s) => (.error e, s)
    | (.ok reply, s) =>
      let (replies, s) := s.applyAll now rest
      (replies.map (reply :: ·), s)

end Store
end RemoteCall.Registry
