import RemoteCall.Proofs.Registry.Moves

/-! How a node stands.

Of everything there is in the traffic of many clients, little has a bearing on one node: the
record of the node as far as it can be seen, whether the store is online, and what each client
has to do with the node. That is its `Standing`. What a move makes of it depends on the standing
alone, and not on other nodes, on watches, sweeps, caches and discoveries (`standing_play`). -/
namespace RemoteCall.Registry

/-- How a node stands. -/
@[ext]
structure Standing where
  now : Nat := 0
  available : Bool := true
  /-- The record of the node, if it is live. -/
  record : Option Entry := none
  keepers : String → Keeper := fun _ => {}

namespace Standing

def setKeeper (p : Standing) (name : String) (k : Keeper) : Standing :=
  { p with keepers := fun other => if other = name then k else p.keepers other }

/-- The record after a client has renewed all that it registered. -/
def renewal (p : Standing) (name : String) (ttl : Nat) : Option Entry :=
  match p.available, (p.keepers name).own with
  | true, some i => seen p.now (some (Client.renewed p.now ttl i p.record))
  | _, _ => p.record

/-- Something is done to the store by nobody in particular. -/
def apply (p : Standing) (node : String) : Store.Op → Standing
  | .put key value ttl =>
    if p.available = true ∧ recordKey node = key then
      { p with record := seen p.now (some ⟨value, p.now + ttl⟩) }
    else p
  | .refresh key ttl =>
    if p.available = true ∧ recordKey node = key then
      { p with record := seen p.now (p.record.map fun e => { e with deadline := p.now + ttl }) }
    else p
  | .delete key =>
    if p.available = true ∧ recordKey node = key then { p with record := none } else p
  | .setAvailable available => { p with available := available }
  | .get _ | .scan _ | .sweep => p

/-- What is done to the store is not done to the clients. -/
theorem keepers_apply (p : Standing) (node : String) (op : Store.Op) :
    (p.apply node op).keepers = p.keepers := by
  unfold apply
  split <;> first | rfl | (split <;> rfl)

/-- A client registers an instance at the node. -/
def register (p : Standing) (name : String) (i : Instance) : Standing :=
  match (p.keepers name).config, p.available with
  | some config, true =>
    { p.setKeeper name { p.keepers name with own := some i } with
      record := seen p.now (some ⟨Client.recordOf i, p.now + config.ttl.toNat⟩) }
  | _, _ => p

/-- A client gives up the node. -/
def unregister (p : Standing) (name : String) : Standing :=
  { p.setKeeper name { p.keepers name with own := none } with
    record := if p.available then none else p.record }

/-- A client starts to renew its records. -/
def heartBeat (p : Standing) (name : String) : Standing :=
  match (p.keepers name).config with
  | some config => p.setKeeper name { p.keepers name with
      beat := some ((p.keepers name).beat.getD
        (.heartbeat config.heartbeatInterval.toNat p.now config.ttl.toNat)) }
  | none => p

/-- A client renews its records at once. -/
def renew (p : Standing) (name : String) : Standing :=
  match (p.keepers name).config with
  | some config => { p with record := p.renewal name config.ttl.toNat }
  | none => p

/-- A client gives up all its nodes and stops its tasks. -/
def destroy (p : Standing) (name : String) : Standing :=
  { p.setKeeper name { config := (p.keepers name).config } with
    record := if p.available = true ∧ (p.keepers name).own.isSome then none else p.record }

/-- The heartbeat of a client has its turn if it is due. -/
def beat (p : Standing) (name : String) : Standing :=
  match (p.keepers name).beat with
  | some (.heartbeat period next ttl) =>
    if p.now < next then p
    else if period = 0 then p.setKeeper name { p.keepers name with beat := none }
    else
      { p.setKeeper name { p.keepers name with
          beat := some (.heartbeat period (Client.nextDue period next p.now) ttl) } with
        record := p.renewal name ttl }
  | _ => p

/-- What a move makes of the standing of a node. -/
def play (p : Standing) (node : String) : Traffic.Move → Standing
  | .world (.store op) => p.apply node op
  | .world (.init name config) =>
    p.setKeeper name { p.keepers name with
      config := some ((p.keepers name).config.getD config) }
  | .world (.register name i) => if node = i.nodeKey then p.register name i else p
  | .world (.unregister name i) => if node = i.nodeKey then p.unregister name else p
  | .world (.heartBeat name) => p.heartBeat name
  | .world (.renew name) => p.renew name
  | .world (.destroy name) => p.destroy name
  | .elapse ms => { p with now := p.now + ms, record := seen (p.now + ms) p.record }
  | .due name key => if key = Client.heartbeatTask then p.beat name else p
  | _ => p

theorem setKeeper_self (p : Standing) (name : String) : p.setKeeper name (p.keepers name) = p := by
  ext1
  · rfl
  · rfl
  · rfl
  · funext other
    show (if other = name then p.keepers name else p.keepers other) = p.keepers other
    split
    · next h => rw [h]
    · rfl

theorem register_of_online {p : Standing} {name : String} {config : RegistryConfig}
    (hconfig : (p.keepers name).config = some config) (h : p.available = true) (i : Instance) :
    p.register name i = { p.setKeeper name { p.keepers name with own := some i } with
      record := seen p.now (some ⟨Client.recordOf i, p.now + config.ttl.toNat⟩) } := by
  rw [register, hconfig, h]

theorem register_of_refused {p : Standing} {name : String}
    (h : (p.keepers name).config = none ∨ p.available = false) (i : Instance) :
    p.register name i = p := by
  unfold register
  split
  · next hconfig havailable =>
    rcases h with h | h
    · rw [h] at hconfig
      cases hconfig
    · rw [h] at havailable
      cases havailable
  · rfl

theorem heartBeat_of_none {p : Standing} {name : String} (h : (p.keepers name).config = none) :
    p.heartBeat name = p := by
  rw [heartBeat, h]

theorem heartBeat_of_some {p : Standing} {name : String} {config : RegistryConfig}
    (h : (p.keepers name).config = some config) :
    p.heartBeat name = p.setKeeper name { p.keepers name with
      beat := some ((p.keepers name).beat.getD
        (.heartbeat config.heartbeatInterval.toNat p.now config.ttl.toNat)) } := by
  rw [heartBeat, h]

theorem renew_of_none {p : Standing} {name : String} (h : (p.keepers name).config = none) :
    p.renew name = p := by
  rw [renew, h]

theorem renew_of_some {p : Standing} {name : String} {config : RegistryConfig}
    (h : (p.keepers name).config = some config) :
    p.renew name = { p with record := p.renewal name config.ttl.toNat } := by
  rw [renew, h]

theorem beat_of_none {p : Standing} {name : String} (h : (p.keepers name).beat = none) :
    p.beat name = p := by
  rw [beat, h]

section Beat
variable {p : Standing} {name : String} {period next ttl : Nat}

theorem beat_of_early (h : (p.keepers name).beat = some (.heartbeat period next ttl))
    (hearly : p.now < next) : p.beat name = p := by
  rw [beat, h]
  exact if_pos hearly

theorem beat_of_zero (h : (p.keepers name).beat = some (.heartbeat 0 next ttl))
    (hdue : next ≤ p.now) :
    p.beat name = p.setKeeper name { p.keepers name with beat := none } := by
  rw [beat, h]
  exact (if_neg (Nat.not_lt.2 hdue)).trans (if_pos rfl)

theorem beat_of_heartbeat (h : (p.keepers name).beat = some (.heartbeat period next ttl))
    (hdue : next ≤ p.now) (hperiod : period ≠ 0) :
    p.beat name = { p.setKeeper name { p.keepers name with
        beat := some (.heartbeat period (Client.nextDue period next p.now) ttl) } with
      record := p.renewal name ttl } := by
  rw [beat, h]
  exact (if_neg (Nat.not_lt.2 hdue)).trans (if_neg hperiod)

end Beat

/-- The record changes, or else nothing does. -/
theorem record_ite (p : Standing) (condition : Prop) [Decidable condition] (record : Option Entry) :
    ({ p with record := if condition then record else p.record } : Standing) =
      if condition then { p with record := record } else p := by
  split <;> rfl

end Standing

/-! ### The standing after a move -/

namespace Traffic
open Client

def standing (x : Traffic) (node : String) : Standing where
  now := x.world.now
  available := x.world.store.available
  record := x.world.store.live? x.world.now (recordKey node)
  keepers name := (x.member name).client.keeper node

section
variable {x y : Traffic} {name node : String} {s : Store} {d : CachedClient}

theorem Deed.standing (h : Deed x name s d y) (node : String) :
    y.standing node = { (x.standing node).setKeeper name (d.client.keeper node) with
      available := s.available
      record := s.live? x.world.now (recordKey node) } := by
  ext1
  · exact h.now
  · exact congrArg Store.available h.store
  · show y.world.store.live? y.world.now _ = _
    rw [h.now, h.store]
  · funext other
    show (y.member other).client.keeper node = if other = name then _ else _
    rw [h.member]
    split <;> rfl

/-- A client does something that has no bearing on the node. -/
theorem Deed.standing_same (h : Deed x name s d y)
    (hs : Store.Spares x.world.now (· = recordKey node) x.world.store s)
    (hd : d.client.keeper node = (x.member name).client.keeper node) :
    y.standing node = x.standing node := by
  rw [h.standing, hd]
  refine (Standing.ext ?_ ?_ ?_ ?_).trans (Standing.setKeeper_self (x.standing node) name)
  · rfl
  · exact hs.available
  · exact hs.live _ rfl
  · rfl

/-- The client does something to the record only. -/
theorem Deed.standing_record (h : Deed x name s d y)
    (hs : s.available = x.world.store.available)
    (hd : d.client.keeper node = (x.member name).client.keeper node) :
    y.standing node =
      { x.standing node with record := s.live? x.world.now (recordKey node) } := by
  rw [h.standing, hd, hs]
  exact congrArg (fun p : Standing => { p with record := s.live? x.world.now (recordKey node) })
    (Standing.setKeeper_self (x.standing node) name)

/-- The record after a client has renewed all that it registered. -/
theorem live?_renewal (hx : x.Orderly) (name node : String) (ttl : Nat) :
    (renewAll x.world.store x.world.now ttl (x.member name).client.own).2.live? x.world.now
      (recordKey node) = (x.standing node).renewal name ttl :=
  live?_renewAll (hx.members name).own x.world.store x.world.now ttl node

theorem standing_store (x : Traffic) (op : Store.Op) (node : String) :
    (x.play (.world (.store op))).standing node = (x.standing node).apply node op := by
  have hdeed : Deed x "" (x.world.store.apply x.world.now op).2 (x.member "")
      (x.play (.world (.store op))) := deed_store x "" _
  cases op with
  | put key value ttl =>
    refine (hdeed.standing_record (Store.available_put ..) rfl).trans ?_
    show ({ x.standing node with record := (x.world.store.put _ _ _ _).2.live? _ _ } : Standing) = _
    rw [Store.live?_put]
    exact (x.standing node).record_ite (x.world.store.available = true ∧ recordKey node = key) _
  | get key => exact hdeed.standing_same (Store.spares_get key) rfl
  | refresh key ttl =>
    refine (hdeed.standing_record (Store.available_refresh ..) rfl).trans ?_
    show ({ x.standing node with
      record := (x.world.store.refresh _ _ _).2.live? _ _ } : Standing) = _
    rw [Store.live?_refresh]
    exact (x.standing node).record_ite (x.world.store.available = true ∧ recordKey node = key) _
  | delete key =>
    refine (hdeed.standing_record (Store.available_delete ..) rfl).trans ?_
    show ({ x.standing node with record := (x.world.store.delete _ _).2.live? _ _ } : Standing) = _
    rw [Store.live?_delete]
    exact (x.standing node).record_ite (x.world.store.available = true ∧ recordKey node = key) _
  | scan root => exact hdeed.standing_same (Store.spares_scan root) rfl
  | sweep => exact hdeed.standing_same Store.spares_sweep rfl
  | setAvailable available => rfl

theorem standing_register (x : Traffic) (name : String) (i : Instance) (node : String) :
    (x.play (.world (.register name i))).standing node =
      if node = i.nodeKey then (x.standing node).register name i else x.standing node := by
  have hdeed : Deed x name ((x.member name).client.register x.world.store x.world.now i).2.1
      { x.member name with
        client := ((x.member name).client.register x.world.store x.world.now i).2.2 }
      (x.play (.world (.register name i))) := deed_withMember x name _ _
  by_cases hrefused : (x.member name).client.config = none ∨ x.world.store.available = false
  · rw [Client.register_of_refused hrefused] at hdeed
    rw [Standing.register_of_refused hrefused, ite_self]
    exact hdeed.standing_same (.refl _) rfl
  · obtain ⟨hnone, hoffline⟩ := not_or.1 hrefused
    obtain ⟨config, hconfig⟩ := Option.ne_none_iff_exists'.1 hnone
    replace hoffline : x.world.store.available = true := Bool.eq_true_of_not_eq_false hoffline
    rw [Client.register_of_online hconfig hoffline] at hdeed
    by_cases hnode : node = i.nodeKey
    · rw [if_pos hnode, Standing.register_of_online hconfig hoffline, hdeed.standing, keeper_insert,
        if_pos hnode, Store.live?_put, if_pos ⟨hoffline, congrArg recordKey hnode⟩,
        Store.available_put]
      rfl
    · have hkey : ¬recordKey i.nodeKey = recordKey node := fun h => hnode (recordKey_inj.1 h).symm
      rw [if_neg hnode]
      exact hdeed.standing_same (Store.spares_put hkey)
        ((keeper_insert _ i node).trans (if_neg hnode))

theorem standing_unregister (x : Traffic) (name : String) (i : Instance) (node : String) :
    (x.play (.world (.unregister name i))).standing node =
      if node = i.nodeKey then (x.standing node).unregister name else x.standing node := by
  have hdeed : Deed x name ((x.member name).unregister x.world.store x.world.now i).2.1
      ((x.member name).unregister x.world.store x.world.now i).2.2
      (x.play (.world (.unregister name i))) := deed_withMember x name _ _
  have hkeeper : ((x.member name).unregister x.world.store x.world.now i).2.2.client.keeper node =
      if node = i.nodeKey then { (x.member name).client.keeper node with own := none }
      else (x.member name).client.keeper node := by
    rw [client_unregister, keeper_unregister]
  rw [store_unregister] at hdeed
  by_cases hnode : node = i.nodeKey
  · rw [if_pos hnode] at hkeeper ⊢
    rw [hdeed.standing, hkeeper]
    show Standing.mk _ (x.world.store.delete _ _).2.available
      ((x.world.store.delete _ _).2.live? _ _) _ = _
    rw [Store.available_delete, Store.live?_delete, hnode]
    simp only [and_true]
    rfl
  · have hkey : ¬recordKey i.nodeKey = recordKey node := fun h => hnode (recordKey_inj.1 h).symm
    rw [if_neg hnode] at hkeeper ⊢
    exact hdeed.standing_same (Client.spares_unregister hkey) hkeeper

theorem standing_destroy (hx : x.Orderly) (name node : String) :
    (x.play (.world (.destroy name))).standing node = (x.standing node).destroy name := by
  have hdeed : Deed x name (takenBack x.world.store x.world.now (x.member name).client.own.keys)
      ((x.member name).destroy x.world.store x.world.now).2
      (x.play (.world (.destroy name))) := deed_withMember x name _ _
  have hspares : Store.Spares x.world.now (fun _ => False) x.world.store
      (takenBack x.world.store x.world.now (x.member name).client.own.keys) :=
    spares_takenBack fun _ _ => id
  have hkeeper : ((x.member name).destroy x.world.store x.world.now).2.client.keeper node =
      { config := (x.member name).client.config } := 
        (hx.members name).keeper_destroy x.world.store x.world.now node
  rw [hdeed.standing, hspares.available, hkeeper, live?_takenBack]
  simp only [Dict.mem_keys]
  rfl

theorem standing_heartBeat (hx : x.Orderly) (name node : String) :
    (x.play (.world (.heartBeat name))).standing node = (x.standing node).heartBeat name := by
  have hdeed : Deed x name x.world.store
      { x.member name with client := ((x.member name).client.heartBeat x.world.now).2 }
      (x.play (.world (.heartBeat name))) := deed_withMember x name _ _
  cases hconfig : (x.member name).client.config with
  | none =>
    rw [Standing.heartBeat_of_none hconfig]
    rw [heartBeat_of_none hconfig] at hdeed
    exact hdeed.standing_same (.refl _) rfl
  | some config =>
    rw [Standing.heartBeat_of_some hconfig, hdeed.standing,
      (hx.members name).keeper_heartBeat hconfig]
    rfl

theorem standing_renew (hx : x.Orderly) (name node : String) :
    (x.play (.world (.renew name))).standing node = (x.standing node).renew name := by
  have hdeed : Deed x name ((x.member name).client.renew x.world.store x.world.now).2
      (x.member name) (x.play (.world (.renew name))) := deed_store x name _
  cases hconfig : (x.member name).client.config with
  | none =>
    rw [renew_of_none hconfig] at hdeed
    rw [Standing.renew_of_none hconfig]
    exact hdeed.standing_same (.refl _) rfl
  | some config =>
    rw [renew_of_some hconfig] at hdeed
    rw [Standing.renew_of_some hconfig, hdeed.standing_record (available_renewAll ..) rfl,
      live?_renewal hx]

/-- A turn of a task has a bearing on a node only if the task is the heartbeat. -/
theorem standing_due (hx : x.Orderly) (name key node : String) :
    (x.play (.due name key)).standing node =
      if key = heartbeatTask then (x.standing node).beat name else x.standing node := by
  have hdeed := deed_due x name key
  have hname := hx.members name
  by_cases hkey : key = heartbeatTask
  · subst hkey
    rw [if_pos rfl]
    cases hjob : (x.member name).client.tasks.at? heartbeatTask with
    | none =>
      rw [due_of_none hjob] at hdeed
      rw [Standing.beat_of_none hjob]
      exact hdeed.standing_same (.refl _) rfl
    | some job =>
      have hkind := hname.tasks.keyed heartbeatTask job hjob
      cases job with
      | sweeper period next => exact absurd hkind.symm sweeperTask_ne_heartbeatTask
      | watch w => exact absurd hkind.symm (watchTask_ne_heartbeatTask w.node)
      | heartbeat period next ttl =>
        by_cases hdue : x.world.now < next
        · rw [due_of_early hjob hdue] at hdeed
          rw [Standing.beat_of_early hjob hdue]
          exact hdeed.standing_same (.refl _) rfl
        · replace hdue := Nat.le_of_not_lt hdue
          by_cases hperiod : period = 0
          · subst hperiod
            rw [due_of_zero hjob hdue] at hdeed
            rw [Standing.beat_of_zero hjob hdue, hdeed.standing, hname.keeper_finish hjob,
              if_pos rfl]
            rfl
          · rw [due_of_heartbeat hjob hdue hperiod] at hdeed
            rw [Standing.beat_of_heartbeat hjob hdue hperiod, hdeed.standing,
              hname.keeper_update hjob, if_pos rfl, live?_renewal hx, available_renewAll]
            rfl
  · rw [if_neg hkey]
    exact hdeed.standing_same (hname.spares_due hkey) (hname.keeper_due hkey)

/-- **What a move makes of the standing of a node depends on the standing alone.** -/
theorem standing_play (hx : x.Orderly) (move : Move) (node : String) :
    (x.play move).standing node = (x.standing node).play node move := by
  cases move with
  | world a =>
    cases a with
    | store op => exact standing_store x op node
    | init name config =>
      have hdeed : Deed x name x.world.store ((x.member name).init x.world.now config)
          (x.play (.world (.init name config))) := deed_withMember x name _ _
      have hkeeper : ((x.member name).init x.world.now config).client.keeper node =
          { (x.member name).client.keeper node with
            config := some ((x.member name).client.config.getD config) } :=
        (hx.members name).keeper_init config
      rw [hdeed.standing, hkeeper]
      rfl
    | register name i => exact standing_register x name i node
    | unregister name i => exact standing_unregister x name i node
    | heartBeat name => exact standing_heartBeat hx name node
    | renew name => exact standing_renew hx name node
    | destroy name => exact standing_destroy hx name node
    | ask name service => exact (deed_store x name _).standing_same (spares_discover service) rfl
    | watch name watched tag =>
      refine (deed_withMember x name _ _).standing_same ?_ ?_
      · rw [store_watch]
        exact spares_watch watched _
      · rw [client_watch]
        exact (hx.members name).keeper_watch watched _
    | clearCache name => exact (deed_withMember x name _ _).standing_same (.refl _) rfl
    | advance ms => rfl
    | sleep ms => rfl
    | discover name service => rfl
  | elapse ms =>
    refine Standing.ext rfl rfl ?_ rfl
    exact (seen_seen (Nat.le_add_right _ _) _).symm
  | due name key => exact standing_due hx name key node
  | hear name key count =>
    refine (deed_hear x name key count).standing_same (.refl _) ?_
    rw [client_notify]
    exact (hx.members name).keeper_listen key count
  | discover name service => rfl
  | look n =>
    obtain ⟨lookups, hlook⟩ := play_look x n
    rw [hlook]
    rfl
  | goOn n =>
    cases hlookup : x.lookups[n]? with
    | none =>
      rw [play_goOn_of_none hlookup]
      rfl
    | some p =>
      obtain ⟨name, l⟩ := p
      refine (deed_goOn hlookup).standing_same l.spares_step ?_
      rcases l.client_step (x.member name) x.world.store x.world.now with hsame | ⟨watched, hwatch⟩
      · rw [hsame]
      · rw [hwatch]
        exact (hx.members name).keeper_watch watched _

end

end Traffic
end RemoteCall.Registry
