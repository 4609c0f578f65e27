import RemoteCall.Proofs.Registry.Isolation

/-! Discoveries are complete and current.

Under the root of all records only clients put anything, so what lies there can always be read,
and a discovery fails only while the store is away. What it finds is followed through a run node by
node: a record that is live holds the instance that was stored there last, be it by a registration
or by a renewal that found the record gone and wrote it back (`Standing.stored?`). So a
discovery lists exactly one instance for every node of the service whose lease is running, the last
stored one, and none for any other (`discover_current`). This asks nothing of the names of
services. -/
namespace RemoteCall.Registry

open Traffic (Move)

namespace Traffic.Move

/-- Whether a move puts nothing under the root of all records but by way of a client. -/
def putsNoRecord : Move → Bool
  | .world (.store (.put key _ _)) => !Store.under recordRoot key
  | _ => true

end Traffic.Move

namespace Standing
variable {node name : String} {p : Standing} {move : Move} {last : Option Instance}

/-! ### What is stored of a node -/

/-- The instance that a client registers at a node by a move, if it may. -/
def registered? (p : Standing) (name node : String) : Move → Option Instance
  | .world (.register other i) =>
    if other = name ∧ node = i.nodeKey ∧ (p.keepers name).config.isSome = true ∧
      p.available = true then some i else none
  | _ => none

/-- For a turn of the heartbeat of a client, whether the store was available. -/
def turn? (p : Standing) (name : String) : Move → Option Bool
  | .due other key =>
    if other = name ∧ key = Client.heartbeatTask then
      match (p.keepers name).beat with
      | some (.heartbeat period next _) =>
        if period ≠ 0 ∧ next ≤ p.now then some p.available else none
      | _ => none
    else none
  | _ => none

/-- The instance that a client writes back when it renews, if its record is gone. -/
def writtenBack? (p : Standing) (name : String) : Option Instance :=
  if p.available = true ∧ p.record = none then (p.keepers name).own else none

/-- The instance whose record a move stores under a node. -/
def stored? (p : Standing) (node : String) : Move → Option Instance
  | .world (.register name i) => p.registered? name node (.world (.register name i))
  | .world (.renew name) =>
    if (p.keepers name).config.isSome then p.writtenBack? name else none
  | .due name key => if (p.turn? name (.due name key)).isSome then p.writtenBack? name else none
  | _ => none

/-- If nothing was registered, the client was refused. -/
theorem refused_of_old {i : Instance} (hnode : node = i.nodeKey)
    (hold : p.registered? name node (.world (.register name i)) = none) :
    (p.keepers name).config = none ∨ p.available = false := by
  rw [← Option.not_isSome_iff_eq_none, ← Bool.not_eq_true, ← not_and_or]
  intro hboth
  rw [registered?, if_pos ⟨rfl, hnode, hboth⟩] at hold
  cases hold

theorem writtenBack?_some {i : Instance} (h : p.writtenBack? name = some i) :
    p.available = true ∧ p.record = none ∧ (p.keepers name).own = some i := by
  unfold writtenBack? at h
  split at h
  · next hboth => exact ⟨hboth.1, hboth.2, h⟩
  · cases h

/-- A client that writes nothing back leaves the record with the text it had. -/
theorem value_renewal (h : p.writtenBack? name = none) {ttl : Nat} {e : Entry}
    (he : p.renewal name ttl = some e) : ∃ d, p.record = some d ∧ d.value = e.value := by
  rcases renewal_some he with hkept | ⟨i, hown, rfl⟩
  · exact ⟨e, hkept, rfl⟩
  · cases hrecord : p.record with
    | some d => exact ⟨d, rfl, rfl⟩
    | none =>
      have haway : p.available = false := by
        refine Bool.eq_false_iff.2 fun havailable => ?_
        rw [writtenBack?, if_pos ⟨havailable, hrecord⟩, hown] at h
        cases h
      rw [renewal, haway, hrecord] at he
      cases he

theorem value_writtenBack {i : Instance} (h : p.writtenBack? name = some i) {ttl : Nat} {e : Entry}
    (he : p.renewal name ttl = some e) : e.value = Client.recordOf i := by
  obtain ⟨havailable, hnone, hown⟩ := writtenBack?_some h
  rw [renewal, havailable, hown, hnone] at he
  exact congrArg Entry.value (some_of_seen he).symm

theorem turn?_isSome {key : String} (h : (p.turn? name (.due name key)).isSome = true) :
    key = Client.heartbeatTask ∧ ∃ period next ttl,
      (p.keepers name).beat = some (.heartbeat period next ttl) ∧ period ≠ 0 ∧ next ≤ p.now := by
  rw [turn?] at h
  split at h
  · next hkey =>
    split at h
    · next period next ttl hbeat =>
      split at h
      · next hdue => exact ⟨hkey.2, period, next, ttl, hbeat, hdue⟩
      · cases h
    · cases h
  · cases h

/-- A heartbeat that has no turn does nothing to the record. -/
theorem record_beat_of_early
    (h : (p.turn? name (.due name Client.heartbeatTask)).isSome = false) :
    (p.beat name).record = p.record := by
  unfold beat
  split
  · next period next ttl hbeat =>
    split
    · rfl
    · next hdue =>
      split
      · rfl
      · next hperiod =>
        rw [turn?, if_pos ⟨rfl, rfl⟩, hbeat] at h
        simp [hperiod, Nat.le_of_not_lt hdue] at h
  · rfl

/-- A record that is there after a move that stores none was there before with the same text. -/
theorem value_of_unstored (hmove : move.putsNoRecord = true) (h : p.stored? node move = none)
    {e : Entry} (he : (p.play node move).record = some e) :
    ∃ d, p.record = some d ∧ d.value = e.value := by
  cases origin he with
  | kept hkept => exact ⟨e, hkept, rfl⟩
  | put value ttl => simp [Move.putsNoRecord, under_recordKey] at hmove
  | refreshed hbefore ttl => exact ⟨_, hbefore, rfl⟩
  | registered hnode hconfig =>
    rw [play, if_pos hnode, register_of_refused (refused_of_old hnode h)] at he
    exact ⟨_, he, rfl⟩
  | renewed hown hconfig =>
    rw [stored?, hconfig] at h
    rw [play, renew_of_some hconfig] at he
    exact value_renewal h he
  | @beaten name i period next ttl hown hbeat =>
    rw [play, if_pos rfl] at he
    rw [stored?] at h
    split at h
    · next hturn =>
      obtain ⟨-, period', next', ttl', hbeat', hperiod, hdue⟩ := turn?_isSome hturn
      rw [beat_of_heartbeat hbeat' hdue hperiod] at he
      exact value_renewal h he
    · next hturn =>
      rw [record_beat_of_early (Bool.eq_false_iff.2 hturn)] at he
      exact ⟨_, he, rfl⟩

/-- A record that is there after a move that stores one is that one. -/
theorem value_of_stored {i : Instance} (h : p.stored? node move = some i) {e : Entry}
    (he : (p.play node move).record = some e) : e.value = Client.recordOf i := by
  cases move with
  | due name key =>
    rw [stored?] at h
    split at h
    · next hturn =>
      obtain ⟨rfl, period, next, ttl, hbeat, hperiod, hdue⟩ := turn?_isSome hturn
      rw [play, if_pos rfl, beat_of_heartbeat hbeat hdue hperiod] at he
      exact value_writtenBack h he
    · cases h
  | world a =>
    cases a with
    | register name j =>
      rw [stored?, registered?] at h
      split at h
      · next hall =>
        obtain rfl := Option.some.inj h
        obtain ⟨-, hnode, hconfig, havailable⟩ := hall
        obtain ⟨config, hconfig⟩ := Option.isSome_iff_exists.1 hconfig
        rw [play, if_pos hnode, register_of_online hconfig havailable] at he
        exact congrArg Entry.value (some_of_seen he).symm
      · cases h
    | renew name =>
      rw [stored?] at h
      split at h
      · next hconfig =>
        obtain ⟨config, hconfig⟩ := Option.isSome_iff_exists.1 hconfig
        rw [play, renew_of_some hconfig] at he
        exact value_writtenBack h he
      · cases h
    | _ => cases h
  | _ => cases h

/-! ### What a run keeps -/

/-- Whether clients have instances only under their own node, and the record of the node, if there
is one, is that of the last instance stored there. -/
structure Faithful (node : String) (last : Option Instance) (p : Standing) : Prop where
  own : ∀ name i, (p.keepers name).own = some i → node = i.nodeKey
  record : ∀ e, p.record = some e →
    ∃ i, last = some i ∧ node = i.nodeKey ∧ e.value = Client.recordOf i

theorem faithful_empty (node : String) : Faithful node none {} where
  own _ _ h := by cases h
  record _ h := by cases h

/-- What is stored at a node is an instance of the node. -/
theorem Faithful.nodeKey (h : p.Faithful node last) {i : Instance}
    (hstored : p.stored? node move = some i) : node = i.nodeKey := by
  cases move with
  | due name key =>
    rw [stored?] at hstored
    split at hstored
    · exact h.own name i (writtenBack?_some hstored).2.2
    · cases hstored
  | world a =>
    cases a with
    | register name j =>
      rw [stored?, registered?] at hstored
      split at hstored
      · next hall =>
        obtain rfl := Option.some.inj hstored
        exact hall.2.1
      · cases hstored
    | renew name =>
      rw [stored?] at hstored
      split at hstored
      · exact h.own name i (writtenBack?_some hstored).2.2
      · cases hstored
    | _ => cases hstored
  | _ => cases hstored

theorem Faithful.play (h : p.Faithful node last) (hmove : move.putsNoRecord = true) :
    (p.play node move).Faithful node ((p.stored? node move).or last) where
  own name i hi := by
    rcases own_play hi with hbefore | ⟨-, hnode⟩
    · exact h.own name i hbefore
    · exact hnode
  record e he := by
    cases hstored : p.stored? node move with
    | some i => exact ⟨i, rfl, h.nodeKey hstored, value_of_stored hstored he⟩
    | none =>
      obtain ⟨d, hd, hvalue⟩ := value_of_unstored hmove hstored he
      obtain ⟨i, hlast, hnode, hrecord⟩ := h.record d hd
      exact ⟨i, hlast, hnode, hvalue.symm.trans hrecord⟩

end Standing

/-! ### Listings -/

/-- Texts that can all be read are read one by one, and keep their names. -/
theorem Client.mapM_of_readable {α β γ ε : Type} {f : α → Except ε β} {name : α → γ}
    {nameOf : β → γ} {xs : List α} (h : ∀ x ∈ xs, ∃ y, f x = .ok y ∧ nameOf y = name x) :
    ∃ ys, xs.mapM f = .ok ys ∧ ys.map nameOf = xs.map name := by
  induction xs with
  | nil => exact ⟨[], rfl, rfl⟩
  | cons x xs ih =>
    obtain ⟨y, hy, hname⟩ := h x List.mem_cons_self
    obtain ⟨ys, hys, hnames⟩ := ih fun x' hx' => h x' (List.mem_cons_of_mem _ hx')
    refine ⟨y :: ys, ?_, congrArg₂ List.cons hname hnames⟩
    rw [List.mapM_cons, hy, hys]
    rfl

/-- Among things with different names one is told by its name. -/
theorem filter_of_nodup {α : Type} {f : α → String} {xs : List α} (h : (xs.map f).Nodup) {x : α}
    (hx : x ∈ xs) : xs.filter (fun y => f y = f x) = [x] := by
  induction xs with
  | nil => cases hx
  | cons y xs ih =>
    obtain ⟨hy, hxs⟩ := List.nodup_cons.1 h
    by_cases hsame : f y = f x
    · have hrest : xs.filter (fun z => f z = f x) = [] :=
        List.filter_eq_nil_iff.2 fun z hz hz' =>
          hy (hsame.trans (of_decide_eq_true hz').symm ▸ List.mem_map_of_mem hz)
      have hfirst : x = y := by
        rcases List.mem_cons.1 hx with hfirst | hx
        · exact hfirst
        · exact absurd (hsame ▸ List.mem_map_of_mem hx) hy
      rw [List.filter_cons, if_pos (decide_eq_true hsame), hrest, hfirst]
    · have hlater : x ∈ xs := (List.mem_cons.1 hx).resolve_left fun hfirst => hsame (hfirst ▸ rfl)
      rw [List.filter_cons, if_neg (by simpa using hsame)]
      exact ih hxs hlater

namespace Traffic
variable {x : Traffic}

/-! ### Discoveries -/

/-- The lease of a node after some moves, followed by what each of them does to this node alone: it
begins when a record is written there, is extended when the record is renewed, and ends when its
time is up or it is taken back. -/
def lease? (node : String) (moves : List Move) : Option Entry :=
  (Standing.plays {} node moves).record

/-- The instance that was stored last under a node. -/
def lastStored? (node : String) (moves : List Move) : Option Instance :=
  latest? (fun x move => (x.standing node).stored? node move) {} moves

theorem faithful_plays {node : String} {last : Option Instance} (hx : x.Orderly)
    (h : (x.standing node).Faithful node last) {moves : List Move}
    (hmoves : moves.all Move.putsNoRecord = true) :
    ((x.plays moves).standing node).Faithful node
      ((x.latest? (fun y move => (y.standing node).stored? node move) moves).or last) := by
  induction moves generalizing x last with
  | nil => exact h
  | cons move rest ih =>
    obtain ⟨hmove, hrest⟩ := Bool.and_eq_true_iff.1 hmoves
    have hnext := h.play hmove
    rw [← standing_play hx] at hnext
    have hlast := ih (hx.play move) hnext hrest
    rwa [← Option.or_assoc] at hlast

/-- Every record of a run holds what was stored last under its node. -/
theorem stored_of_lease {node : String} {moves : List Move}
    (hmoves : moves.all Move.putsNoRecord = true) {e : Entry} (he : lease? node moves = some e) :
    ∃ i, lastStored? node moves = some i ∧ node = i.nodeKey ∧ e.value = Client.recordOf i := by
  have h := faithful_plays orderly_empty (Standing.faithful_empty node) hmoves
  rw [Option.or_none, standing_plays orderly_empty] at h
  exact h.record e he

/-- What a discovery lists are the leases of the nodes under the root of the service. -/
theorem mem_listing {moves : List Move} {root node text : String} :
    (recordKey node, text) ∈
        (plays {} moves).world.store.listing (plays {} moves).world.now root ↔
      Store.under root (recordKey node) = true ∧
        (lease? node moves).map Entry.value = some text := by
  have hlive : (plays {} moves).world.store.live? (plays {} moves).world.now (recordKey node) =
      lease? node moves := congrArg Standing.record (standing_plays orderly_empty moves node)
  rw [← hlive]
  exact Store.mem_values_found (orderly_empty.plays moves).store

theorem under_serviceKey (i : Instance) :
    Store.under (Client.serviceRoot i.serviceKey) (recordKey i.nodeKey) = true := by
  have hnode : recordKey i.nodeKey = Client.serviceRoot i.serviceKey ++ i.address := by
    show recordRoot ++ (i.serviceKey ++ "/" ++ i.address) =
      recordRoot ++ (i.serviceKey ++ "/") ++ i.address
    rw [String.append_assoc, String.append_assoc, String.append_assoc]
  rw [Store.under, List.isPrefixOf_iff_prefix, hnode, String.toList_append]
  exact List.prefix_append _ _

/-- **A discovery lists what was stored last under every node whose lease is running, and nothing
under any other.** It does so in the order of keys, whenever the store is available, after any
run of any clients, if nobody but clients puts anything under the root of all records. -/
theorem discover_current {moves : List Move} (hmoves : moves.all Move.putsNoRecord = true)
    (service : String) :
    let x := plays {} moves
    x.world.store.available = true →
    ∃ found, (Client.discover x.world.store x.world.now service).1 = .ok found ∧
      (found.map fun i => recordKey i.nodeKey).Pairwise (· < ·) ∧
      ∀ i : Instance, i.serviceKey = service →
        (lease? i.nodeKey moves = none → found.filter (·.nodeKey = i.nodeKey) = []) ∧
        ((lease? i.nodeKey moves).isSome = true → ∃ j, lastStored? i.nodeKey moves = some j ∧
          found.filter (·.nodeKey = i.nodeKey) = [j]) := by
  intro x havailable
  have hsorted := (orderly_empty.plays moves).store
  -- Every listed text is the record of the instance that was stored last under its key.
  have hread : ∀ p ∈ x.world.store.listing x.world.now (Client.serviceRoot service),
      ∃ j : Instance, Client.readRecord p.1 p.2 = .ok j ∧ recordKey j.nodeKey = p.1 ∧
        lastStored? j.nodeKey moves = some j := by
    rintro ⟨key, text⟩ hlisted
    obtain ⟨node, rfl⟩ := exists_node ((Store.mem_values_found hsorted).1 hlisted).1
    obtain ⟨e, he, rfl⟩ := Option.map_eq_some_iff.1 (mem_listing.1 hlisted).2
    obtain ⟨j, hlast, rfl, hvalue⟩ := stored_of_lease hmoves he
    exact ⟨j, hvalue ▸ Client.readRecord_recordOf _ j, rfl, hlast⟩
  have hnamed : ∀ p ∈ x.world.store.listing x.world.now (Client.serviceRoot service),
      ∃ j : Instance, (fun p : String × String => Client.readRecord p.1 p.2) p = .ok j ∧
        (fun i : Instance => recordKey i.nodeKey) j = Prod.fst p :=
    fun p hp => (hread p hp).imp fun j hj => ⟨hj.1, hj.2.1⟩
  obtain ⟨found, hfound, hkeys⟩ := Client.mapM_of_readable hnamed
  have hlast : ∀ j ∈ found, lastStored? j.nodeKey moves = some j := by
    intro j hj
    obtain ⟨p, hp, hpj⟩ := Client.mem_of_mapM hfound hj
    obtain ⟨j', hj', -, hlast⟩ := hread p hp
    obtain rfl := Except.ok.inj (hj'.symm.trans hpj)
    exact hlast
  have hascending : (found.map fun i => recordKey i.nodeKey).Pairwise (· < ·) := by
    rw [hkeys]
    exact List.pairwise_map.2 (Store.sorted_values_found hsorted _ _)
  refine ⟨found, ?_, hascending, fun i hi => ⟨fun hnone => ?_, fun hsome => ?_⟩⟩
  · rw [Client.discover_fst, if_pos havailable]
    exact hfound
  · refine List.filter_eq_nil_iff.2 fun j hj hsame => ?_
    have hkey : recordKey j.nodeKey ∈ (found.map fun i => recordKey i.nodeKey) :=
      List.mem_map_of_mem hj
    rw [hkeys, of_decide_eq_true hsame] at hkey
    obtain ⟨⟨key, text⟩, hlisted, rfl⟩ := List.mem_map.1 hkey
    obtain ⟨-, hlease⟩ := mem_listing.1 hlisted
    rw [hnone] at hlease
    cases hlease
  · obtain ⟨e, he⟩ := Option.isSome_iff_exists.1 hsome
    have hlisted : (recordKey i.nodeKey, e.value) ∈
        x.world.store.listing x.world.now (Client.serviceRoot service) :=
      mem_listing.2 ⟨hi ▸ under_serviceKey i, congrArg (Option.map Entry.value) he⟩
    have hkey : recordKey i.nodeKey ∈ (found.map fun i => recordKey i.nodeKey) := by
      rw [hkeys]
      exact List.mem_map_of_mem hlisted
    obtain ⟨j, hj, hsame⟩ := List.mem_map.1 hkey
    replace hsame : j.nodeKey = i.nodeKey := recordKey_inj.1 hsame
    have hnodup : (found.map Instance.nodeKey).Nodup := by
      refine List.pairwise_map.2 ((List.pairwise_map.1 hascending).imp ?_)
      intro a b hlt heq
      rw [heq] at hlt
      exact String.lt_irrefl _ hlt
    refine ⟨j, hsame ▸ hlast j hj, ?_⟩
    rw [← hsame]
    exact filter_of_nodup hnodup hj

/-! ### A case -/

/-- A shop puts its printer in the place of one of the office, which has the same node and
another group. Both records end in an outage, and the office writes its own back; the other
printer is given up. -/
def officeAgain : List Move :=
  [.world (.init "office" {}), .world (.register "office" (printer 1)),
    .world (.register "office" (printer 2)), .world (.init "shop" {}),
    .world (.register "shop" { printer 1 with group := "shop" }), .world (.heartBeat "office"),
    .world (.store (.setAvailable false)), .elapse 30000, .due "office" Client.heartbeatTask,
    .world (.store (.setAvailable true)), .elapse 10000, .due "office" Client.heartbeatTask,
    .world (.renew "shop"), .world (.unregister "office" (printer 2)),
    .world (.store (.put "note" "no record" 5))]

/-- The printer of the office is found as the office stored it, and by itself. -/
theorem discover_current_officeAgain :
    let x := plays {} officeAgain
    let found := (Client.discover x.world.store x.world.now "Printer:1.0").1
    found.toOption.map (fun found => found.filter (·.nodeKey = (printer 1).nodeKey)) =
        some [printer 1] ∧
      found.toOption.map (fun found => found.filter (·.nodeKey = (printer 2).nodeKey)) =
        some [] := by
  intro x found
  have hmoves : officeAgain.all Move.putsNoRecord = true := by decide
  obtain ⟨list, hlist, -, hnodes⟩ :=
    discover_current hmoves "Printer:1.0" (by decide +kernel)
  obtain ⟨-, hfirst⟩ := hnodes (printer 1) (by decide)
  obtain ⟨hsecond, -⟩ := hnodes (printer 2) (by decide)
  obtain ⟨j, hj, hfiltered⟩ := hfirst (by decide +kernel)
  have hstored : lastStored? (printer 1).nodeKey officeAgain = some (printer 1) := by
    decide +kernel
  obtain rfl := Option.some.inj (hstored.symm.trans hj)
  have hfound : found = .ok list := hlist
  rw [hfound]
  exact ⟨congrArg some hfiltered, congrArg some (hsecond (by decide +kernel))⟩

end Traffic
end RemoteCall.Registry
