import RemoteCall.Proofs.Registry.Concerns
import RemoteCall.Proofs.Registry.Leases
import RemoteCall.Proofs.Registry.Records

/-! Services do not interfere.

The keys of all nodes lie in one space, and a service finds its nodes by how their keys begin.
So services are apart only if the signs that separate the parts of a key stand nowhere else
(`plainService`): no stroke in a service key and no colon in a name. Hosts may be any texts.
Where all services are plain, a node under the root of a service is a node of this service
(`service_of_under`), what is done for other services does not concern it, and a discovery comes
to the same whether or not it is done (`services_apart`). Where they are not, one service can
overwrite the record of another (`services_collide`). -/
namespace RemoteCall.Registry

open Traffic (Move)

/-! ### Names -/

/-- The key of a service by its name and its version. -/
def serviceKeyOf (name version : String) : String := s!"{name}:{version}"

/-- Whether the parts of the keys of a service can be told from each other. -/
def plainService (name version : String) : Bool :=
  '/' ∉ (serviceKeyOf name version).toList && ':' ∉ name.toList

theorem append_cons_inj {α : Type} {sign : α} {a b c d : List α} (ha : sign ∉ a) (hc : sign ∉ c)
    (h : a ++ sign :: b = c ++ sign :: d) : a = c ∧ b = d := by
  induction a generalizing c with
  | nil =>
    cases c with
    | nil => exact ⟨rfl, (List.cons.inj h).2⟩
    | cons first rest =>
      obtain rfl := (List.cons.inj h).1
      exact absurd List.mem_cons_self hc
  | cons first rest ih =>
    cases c with
    | nil =>
      obtain rfl := (List.cons.inj h).1
      exact absurd List.mem_cons_self ha
    | cons first' rest' =>
      obtain ⟨rfl, hrest⟩ := List.cons.inj h
      obtain ⟨rfl, rfl⟩ := ih (fun hmem => ha (List.mem_cons_of_mem _ hmem))
        (fun hmem => hc (List.mem_cons_of_mem _ hmem)) hrest
      exact ⟨rfl, rfl⟩

theorem toList_serviceKeyOf (name version : String) :
    (serviceKeyOf name version).toList = name.toList ++ ':' :: version.toList := by
  show (name ++ ":" ++ version).toList = _
  rw [String.toList_append, String.toList_append, List.append_assoc]
  rfl

theorem toList_nodeKey (i : Instance) :
    i.nodeKey.toList = (serviceKeyOf i.name i.version).toList ++ '/' :: i.address.toList := by
  show (i.serviceKey ++ "/" ++ i.address).toList = _
  rw [String.toList_append, String.toList_append, List.append_assoc]
  rfl

/-- A plain service is told by its key. -/
theorem serviceKeyOf_inj {name version name' version' : String}
    (h : plainService name version = true) (h' : plainService name' version' = true)
    (heq : serviceKeyOf name version = serviceKeyOf name' version') :
    name = name' ∧ version = version' := by
  have hlists := congrArg String.toList heq
  rw [toList_serviceKeyOf, toList_serviceKeyOf] at hlists
  obtain ⟨-, hname⟩ := Bool.and_eq_true_iff.1 h
  obtain ⟨-, hname'⟩ := Bool.and_eq_true_iff.1 h'
  obtain ⟨hnames, hversions⟩ :=
    append_cons_inj (of_decide_eq_true hname) (of_decide_eq_true hname') hlists
  exact ⟨String.toList_inj.1 hnames, String.toList_inj.1 hversions⟩

/-- **A node under the root of a plain service belongs to an instance of this service.** -/
theorem service_of_under {name version : String} (hservice : plainService name version = true)
    {i : Instance} (hi : plainService i.name i.version = true)
    (h : Store.under (Client.serviceRoot (serviceKeyOf name version)) (recordKey i.nodeKey) = true) :
    i.name = name ∧ i.version = version := by
  obtain ⟨hstroke, -⟩ := Bool.and_eq_true_iff.1 hservice
  obtain ⟨hstroke', -⟩ := Bool.and_eq_true_iff.1 hi
  have hunder := serviceOf?_of_under (of_decide_eq_true hstroke) h
  have hown := serviceOf?_append (of_decide_eq_true hstroke') (toList_nodeKey i)
  exact serviceKeyOf_inj hi hservice (Option.some.inj (hown.symm.trans hunder))

/-! ### Moves -/

theorem under_recordKey (node : String) : Store.under recordRoot (recordKey node) = true := by
  rw [Store.under, List.isPrefixOf_iff_prefix, recordKey, String.toList_append]
  exact List.prefix_append _ _

namespace Traffic.Move

/-- Whether a move leaves the records to the clients, and these to plain services. -/
def plain : Move → Bool
  | .world (.store (.put key _ _)) | .world (.store (.refresh key _))
  | .world (.store (.delete key)) => !Store.under recordRoot key
  | .world (.register _ i) | .world (.unregister _ i) => plainService i.name i.version
  | _ => true

/-- Whether a move registers an instance of a service for nobody but some clients. -/
def servedBy (clients : String → Bool) (name version : String) : Move → Bool
  | .world (.register member i) => clients member || i.name ≠ name || i.version ≠ version
  | _ => true

/-- Whether a move is done for a service that some clients serve: time goes on, the store goes
away or comes back, somebody registers or unregisters an instance, or one of the clients does
something to all of its instances. -/
def serves (clients : String → Bool) (name version : String) : Move → Bool
  | .elapse _ | .world (.store (.setAvailable _)) => true
  | .world (.register _ i) | .world (.unregister _ i) => i.name = name && i.version = version
  | .world (.init member _) | .world (.heartBeat member) | .world (.renew member)
  | .world (.destroy member) => clients member
  | .due member key => clients member && key = Client.heartbeatTask
  | _ => false

section
variable {clients : String → Bool} {name version node : String} {move : Move}
  (hservice : plainService name version = true)
  (hnode : Store.under (Client.serviceRoot (serviceKeyOf name version)) (recordKey node) = true)
  (hmove : move.plain = true)
include hservice hnode hmove

theorem registersFor_of_servedBy (hserved : move.servedBy clients name version = true) :
    move.registersFor clients node = true := by
  cases move with
  | world a =>
    cases a with
    | register member i =>
      by_cases heq : node = i.nodeKey
      · obtain ⟨rfl, rfl⟩ := service_of_under hservice hmove (heq ▸ hnode)
        simpa [servedBy, registersFor, heq] using hserved
      · simp [registersFor, heq]
    | _ => rfl
  | _ => rfl

theorem serves_of_concerns (h : move.concerns clients node = true) :
    move.serves clients name version = true := by
  cases move with
  | world a =>
    cases a with
    | register member i =>
      obtain ⟨hname, hversion⟩ :=
        service_of_under hservice hmove (of_decide_eq_true h ▸ hnode)
      simp [serves, hname, hversion]
    | unregister member i =>
      obtain ⟨hname, hversion⟩ :=
        service_of_under hservice hmove (of_decide_eq_true h ▸ hnode)
      simp [serves, hname, hversion]
    | store op =>
      have hroot := under_recordKey node
      cases op with
      | put key value ttl => simp [plain, ← of_decide_eq_true h, hroot] at hmove
      | refresh key ttl => simp [plain, ← of_decide_eq_true h, hroot] at hmove
      | delete key => simp [plain, ← of_decide_eq_true h, hroot] at hmove
      | setAvailable available => rfl
      | _ => cases h
    | init member config => exact h
    | heartBeat member => exact h
    | renew member => exact h
    | destroy member => exact h
    | _ => cases h
  | elapse ms => rfl
  | due member key => exact h
  | _ => cases h

end
end Traffic.Move

/-! ### Records -/

namespace Standing
variable {node : String} {p : Standing} {move : Move}

/-- Whether what is there of a node is an instance of a plain service. -/
structure Sincere (node : String) (p : Standing) : Prop where
  own : ∀ name i, (p.keepers name).own = some i →
    node = i.nodeKey ∧ plainService i.name i.version = true
  record : ∀ e, p.record = some e → ∃ i : Instance, node = i.nodeKey ∧
    plainService i.name i.version = true ∧ e.value = Client.recordOf i

theorem sincere_empty (node : String) : Sincere node {} where
  own _ _ h := by cases h
  record _ h := by cases h

theorem Sincere.renewed (h : p.Sincere node) {name : String} {i : Instance}
    (hown : (p.keepers name).own = some i) (ttl : Nat) :
    ∃ j : Instance, node = j.nodeKey ∧ plainService j.name j.version = true ∧
      (Client.renewed p.now ttl i p.record).value = Client.recordOf j := by
  cases hrecord : p.record with
  | some e => exact h.record e hrecord
  | none =>
    obtain ⟨hnode, hplain⟩ := h.own name i hown
    exact ⟨i, hnode, hplain, rfl⟩

theorem Sincere.play (h : p.Sincere node) (hmove : move.plain = true) :
    (p.play node move).Sincere node where
  own name i hi := by
    rcases own_play hi with hbefore | ⟨rfl, hnode⟩
    · exact h.own name i hbefore
    · exact ⟨hnode, hmove⟩
  record e he := by
    cases origin he with
    | kept hkept => exact h.record e hkept
    | put value ttl => simp [Move.plain, under_recordKey] at hmove
    | refreshed hbefore ttl => simp [Move.plain, under_recordKey] at hmove
    | registered hnode hconfig => exact ⟨_, hnode, hmove, rfl⟩
    | renewed hown hconfig => exact h.renewed hown _
    | beaten hown hbeat => exact h.renewed hown _

theorem Sincere.plays (h : p.Sincere node) {moves : List Move}
    (hmoves : ∀ move ∈ moves, move.plain = true) : (p.plays node moves).Sincere node := by
  induction moves generalizing p with
  | nil => exact h
  | cons move rest ih =>
    exact ih (h.play (hmoves move List.mem_cons_self)) fun move hmove =>
      hmoves move (List.mem_cons_of_mem _ hmove)

end Standing

/-! ### Discoveries -/

theorem under_serviceRoot (service : String) :
    Store.under (Client.serviceRoot service) (recordKey (service ++ "/")) = true :=
  List.isPrefixOf_iff_prefix.2 (List.prefix_refl _)

namespace Traffic
variable {clients : String → Bool} {name version : String}

/-- What a discovery finds is what was registered for the service. -/
theorem plain_discover {moves : List Move} (hservice : plainService name version = true)
    (hmoves : ∀ move ∈ moves, move.plain = true) {found : List Instance}
    (h : (Client.discover (plays {} moves).world.store (plays {} moves).world.now
      (serviceKeyOf name version)).1 = .ok found) {i : Instance} (hi : i ∈ found) :
    i.name = name ∧ i.version = version := by
  rw [Client.discover_fst] at h
  split at h
  · obtain ⟨⟨key, text⟩, hlisted, hread⟩ := Client.mem_of_mapM h hi
    have horderly := orderly_empty.plays moves
    obtain ⟨hunder, hlive⟩ := (Store.mem_values_found horderly.store).1 hlisted
    obtain ⟨node, rfl⟩ := exists_node hunder
    obtain ⟨e, he, rfl⟩ := Option.map_eq_some_iff.1 hlive
    have hsincere : ((plays {} moves).standing node).Sincere node := by
      rw [standing_plays orderly_empty]
      exact (Standing.sincere_empty node).plays hmoves
    obtain ⟨j, rfl, hplain, hvalue⟩ := hsincere.record e he
    rw [hvalue] at hread
    obtain rfl : j = i := Except.ok.inj ((Client.readRecord_recordOf _ j).symm.trans hread)
    exact service_of_under hservice hplain hunder
  · cases h

/-- **What is done for other services changes nothing for a service**, where all of them are
plain. Two runs of many clients that do the same for a service leave the same live records of
its instances, and the same answer to everyone who asks for it: instances of this service and
of no other. -/
theorem services_apart {as bs : List Move} (hservice : plainService name version = true)
    (has : as.all (fun move => move.plain && move.servedBy clients name version) = true)
    (hbs : bs.all (fun move => move.plain && move.servedBy clients name version) = true)
    (hsame : as.filter (·.serves clients name version) =
      bs.filter (·.serves clients name version)) :
    let service := serviceKeyOf name version
    let x := plays {} as
    let y := plays {} bs
    (Client.discover x.world.store x.world.now service).1 =
        (Client.discover y.world.store y.world.now service).1 ∧
      (∀ found, (Client.discover x.world.store x.world.now service).1 = .ok found →
        ∀ i ∈ found, i.name = name ∧ i.version = version) ∧
      ∀ key, Store.under (Client.serviceRoot service) key = true →
        x.world.store.live? x.world.now key = y.world.store.live? y.world.now key := by
  intro service x y
  have hplain {moves : List Move}
      (h : moves.all (fun move => move.plain && move.servedBy clients name version) = true) :
      ∀ move ∈ moves, move.plain = true := fun move hmove =>
    (Bool.and_eq_true_iff.1 (List.all_eq_true.1 h move hmove)).1
  have hmoves {moves : List Move}
      (h : moves.all (fun move => move.plain && move.servedBy clients name version) = true)
      {node : String} (hnode : Store.under (Client.serviceRoot service) (recordKey node) = true) :
      ∀ move ∈ moves, move.registersFor clients node = true ∧
        (move.concerns clients node = true → move.serves clients name version = true) := by
    intro move hmove
    obtain ⟨hfirst, hserved⟩ := Bool.and_eq_true_iff.1 (List.all_eq_true.1 h move hmove)
    exact ⟨Move.registersFor_of_servedBy hservice hnode hfirst hserved,
      Move.serves_of_concerns hservice hnode hfirst⟩
  have hstands {node : String}
      (hnode : Store.under (Client.serviceRoot service) (recordKey node) = true) :
      Standing.SameFor clients (x.standing node) (y.standing node) := by
    rw [standing_plays orderly_empty, standing_plays orderly_empty]
    exact Standing.sameFor_plays (Standing.leftTo_empty clients) _ (hmoves has hnode)
      (hmoves hbs hnode) hsame
  have hany := hstands (under_serviceRoot service)
  have hlive : ∀ key, Store.under (Client.serviceRoot service) key = true →
      x.world.store.live? x.world.now key = y.world.store.live? y.world.now key := by
    intro key hkey
    obtain ⟨node, rfl⟩ := exists_node hkey
    exact (hstands hkey).record
  refine ⟨?_, fun found hfound i hi => plain_discover hservice (hplain has) hfound hi, hlive⟩
  have havailable : x.world.store.available = y.world.store.available := hany.available
  rw [Client.discover_fst, Client.discover_fst, havailable,
    Store.listing_eq (orderly_empty.plays as).store (orderly_empty.plays bs).store hlive]

/-! ### Cases -/

/-- An office that serves one printer, and a shop in between that registers a printer of another
version, in a host with a name of its own, and stays on. -/
def officeAndShop : List Move :=
  [.world (.init "office" {}), .world (.register "office" (printer 1)), .world (.init "shop" {}),
    .world (.register "shop" { printer 2 with version := "2.0", host := "eu/1.0" }),
    .world (.heartBeat "shop"), .elapse 20000, .due "shop" Client.heartbeatTask,
    .world (.unregister "shop" { printer 1 with version := "2.0" }), .world (.renew "office"),
    .elapse 20000, .world (.destroy "shop")]

/-- The office by itself. -/
def officeAlone : List Move :=
  [.world (.init "office" {}), .world (.register "office" (printer 1)), .elapse 20000,
    .world (.renew "office"), .elapse 20000]

/-- Whoever asks for the printer of the office finds it and no other. -/
theorem services_apart_printers :
    let found := (Client.discover (plays {} officeAndShop).world.store
      (plays {} officeAndShop).world.now (serviceKeyOf "Printer" "1.0")).1
    found = (Client.discover (plays {} officeAlone).world.store
        (plays {} officeAlone).world.now (serviceKeyOf "Printer" "1.0")).1 ∧
      found.toOption = some [printer 1] := by
  have hservice : plainService "Printer" "1.0" = true := by decide
  have hshop : officeAndShop.all
      (fun move => move.plain && move.servedBy (· = "office") "Printer" "1.0") =
      true := by decide
  have hoffice : officeAlone.all
      (fun move => move.plain && move.servedBy (· = "office") "Printer" "1.0") =
      true := by decide
  have hsame : officeAndShop.filter (·.serves (· = "office") "Printer" "1.0") =
      officeAlone.filter (·.serves (· = "office") "Printer" "1.0") := by rfl
  exact ⟨(services_apart hservice hshop hoffice hsame).1, by decide +kernel⟩

/-- **A stroke in a version or in a host brings services into each other's way.** The two
instances belong to different services and have one key. So the second takes the place of the
first in the store and is found instead of it. -/
theorem services_collide :
    let first : Instance := { name := "U", version := "1.0/eu", host := "h", port := 8080 }
    let second : Instance := { name := "U", version := "1.0", host := "eu/h", port := 8080 }
    let before : List Move := [.world (.init "p" {}), .world (.register "p" first)]
    let after : List Move := before ++ [.world (.register "p" second)]
    (first.name, first.version) ≠ (second.name, second.version) ∧
      (Client.discover (plays {} before).world.store (plays {} before).world.now
        first.serviceKey).1.toOption = some [first] ∧
      (Client.discover (plays {} after).world.store (plays {} after).world.now
        first.serviceKey).1.toOption = some [second] := by
  decide +kernel

end Traffic
end RemoteCall.Registry
