import RemoteCall.Proofs.Registry.Keepers
import RemoteCall.Registry.Traffic

/-! Moves: what may happen next, with every task called by its key.

The place of a task in the record tells how many were started before it, and so an action that
picks a task by its place means something else after another history. A move picks it by its
key. Nothing is lost by that: whatever clients do from the beginning is a run of moves
(`run_plays`), for each of them keeps order (`Orderly`). What a move does is done by one client
to itself and to the store (`Deed`). -/
namespace RemoteCall.Registry

/-! ### What a client does as part of a discovery -/

section
open Store
variable {now : Nat} {kept : String → Prop} {s : Store} {c : CachedClient} {node : String}

theorem store_unregister (c : CachedClient) (s : Store) (now : Nat) (i : Instance) :
    (c.unregister s now i).2.1 = (c.client.unregister s now i).2.1 := by
  unfold CachedClient.unregister
  split <;> next h => rw [h]

theorem client_unregister (c : CachedClient) (s : Store) (now : Nat) (i : Instance) :
    (c.unregister s now i).2.2.client = (c.client.unregister s now i).2.2 := by
  unfold CachedClient.unregister
  split <;> next h => rw [h]

theorem store_watch (c : CachedClient) (s : Store) (now : Nat) (node : String)
    (listener : Listener) :
    (c.watch s now node listener).2.1 = (c.client.watch s now node listener).2.1 := by
  unfold CachedClient.watch
  split <;> next h => rw [h]

theorem client_watch (c : CachedClient) (s : Store) (now : Nat) (node : String)
    (listener : Listener) :
    (c.watch s now node listener).2.2.client = (c.client.watch s now node listener).2.2 := by
  unfold CachedClient.watch
  split
  · next h =>
    rw [h]
    exact client_notify _ _
  · next h => rw [h]

theorem client_keep (c : CachedClient) (service : String) (generation : Nat)
    (found : List Instance) : (Lookup.keep c service generation found).client = c.client := by
  unfold Lookup.keep
  split <;> rfl

namespace Lookup

theorem spares_step (l : Lookup) : Spares now kept s (l.step c s now).2.1 := by
  cases l with
  | start service => exact .refl s
  | missed service => exact .refl s
  | done result => exact .refl s
  | asking service generation =>
    have hdiscover : Spares now kept s (Client.discover s now service).2 :=
      Client.spares_discover service
    unfold step
    dsimp only
    split <;> next h => rwa [h] at hdiscover
  | watching service generation found left =>
    cases left with
    | nil => exact .refl s
    | cons i left =>
      have hwatch : Spares now kept s (c.watch s now i.nodeKey .cache).2.1 := by
        rw [store_watch]
        exact Client.spares_watch _ _
      unfold step
      dsimp only
      split <;> next h => rwa [h] at hwatch

/-- A step of a discovery leaves a client as it is, or the client asks for a watch. -/
theorem client_step (l : Lookup) (c : CachedClient) (s : Store) (now : Nat) :
    (l.step c s now).2.2.client = c.client ∨ ∃ node,
      (l.step c s now).2.2.client = (c.client.watch s now node .cache).2.2 := by
  cases l with
  | start service => exact .inl rfl
  | missed service => exact .inl rfl
  | done result => exact .inl rfl
  | asking service generation =>
    unfold step
    dsimp only
    split <;> exact .inl rfl
  | watching service generation found left =>
    cases left with
    | nil => exact .inl (client_keep c service generation found)
    | cons i left =>
      have hwatch := client_watch c s now i.nodeKey .cache
      refine .inr ⟨i.nodeKey, ?_⟩
      unfold step
      dsimp only
      split <;> next h => rwa [h] at hwatch

end Lookup
end

namespace Traffic

/-! ### Clients -/

theorem member_withMember (x : Traffic) (m other : String) (s : Store) (d : CachedClient) :
    (x.withMember m s d).member other = if other = m then d else x.member other := by
  show ((x.world.members.insert m d).find? other).getD {} = _
  split
  · next h =>
    rw [h, Dict.find?_insert_self]
    rfl
  · next h =>
    rw [Dict.find?_insert_of_ne h]
    rfl

/-! ### Moves -/

/-- What may happen next, with every task called by its key. -/
inductive Move where
  /-- Something that is done in one go. -/
  | world (a : World.Action)
  | elapse (ms : Nat)
  /-- A task of a client runs if it is due. -/
  | due (member key : String)
  /-- A watch of a client hears at most so many announcements. -/
  | hear (member key : String) (count : Nat)
  /-- A discovery begins. -/
  | discover (member service : String)
  /-- A discovery looks into the cache. -/
  | look (n : Nat)
  /-- A discovery takes its next step. -/
  | goOn (n : Nat)

/-- The action that is meant by a move. -/
def action (x : Traffic) : Move → Action
  | .world a => .world a
  | .elapse ms => .elapse ms
  | .due name key => .due name ((x.member name).client.tasks.idOf key)
  | .hear name key count => .hear name ((x.member name).client.tasks.idOf key) count
  | .discover name service => .discover name service
  | .look n => .look n
  | .goOn n => .goOn n

def play (x : Traffic) (move : Move) : Traffic := x.step (x.action move)

def plays (x : Traffic) : List Move → Traffic
  | [] => x
  | move :: rest => plays (x.play move) rest

/-! ### What can be said of a run -/

/-- Whether every move of a run is such. -/
def always (such : Traffic → Move → Bool) (x : Traffic) : List Move → Bool
  | [] => true
  | move :: rest => such x move && always such (x.play move) rest

/-- What was noted last in a run. -/
def latest? {α : Type} (note : Traffic → Move → Option α) (x : Traffic) : List Move → Option α
  | [] => none
  | move :: rest => (latest? note (x.play move) rest).or (note x move)

/-! ### Deeds -/

/-- A client did something to itself and to the store, and nothing else has happened to
clients or to the store. -/
structure Deed (x : Traffic) (name : String) (s : Store) (d : CachedClient) (y : Traffic) :
    Prop where
  now : y.world.now = x.world.now
  store : y.world.store = s
  member : ∀ other, y.member other = if other = name then d else x.member other

section Deeds
variable {x y : Traffic} {name key : String} {s : Store} {d : CachedClient}

theorem deed_withMember (x : Traffic) (name : String) (s : Store) (d : CachedClient) :
    Deed x name s d (x.withMember name s d) where
  now := rfl
  store := rfl
  member other := member_withMember x name other s d

/-- The store changes, and no client. -/
theorem deed_store (x : Traffic) (name : String) (s : Store) :
    Deed x name s (x.member name) { x with world := { x.world with store := s } } where
  now := rfl
  store := rfl
  member other := by
    split
    · next h => rw [h]; rfl
    · rfl

/-- Nothing happens but to discoveries. -/
theorem deed_lookups (x : Traffic) (name : String) (lookups : List (String × Lookup)) :
    Deed x name x.world.store (x.member name) { x with lookups := lookups } where
  now := rfl
  store := rfl
  member other := by
    split
    · next h => rw [h]; rfl
    · rfl

theorem job?_eq_state? (x : Traffic) (name : String) (id : TaskId) :
    x.job? name id = (x.member name).client.tasks.state? id := by
  unfold job? TaskSet.state?
  cases (x.member name).client.tasks.phase? id with
  | none => rfl
  | some p => cases p <;> rfl

theorem deed_due (x : Traffic) (name key : String) :
    Deed x name ((x.member name).client.due x.world.store x.world.now key).1
      { x.member name with
        client := ((x.member name).client.due x.world.store x.world.now key).2 }
      (x.play (.due name key)) := by
  show Deed x name _ _ (x.due name _)
  unfold due
  rw [job?_eq_state?, TaskSet.state?_idOf]
  cases h : (x.member name).client.tasks.at? key with
  | none =>
    rw [Client.due_of_none h]
    exact deed_lookups x name x.lookups
  | some job =>
    have hdue : (x.member name).client.due x.world.store x.world.now key =
        (x.member name).client.runDue x.world.store x.world.now
          ((x.member name).client.tasks.idOf key) job := by
      rw [Client.due, h]
    rw [hdue]
    exact deed_withMember x name _ _

theorem deed_hear (x : Traffic) (name key : String) (count : Nat) :
    Deed x name x.world.store
      ({ x.member name with
        client := ((x.member name).client.listen x.world.store key count).2 }.notify?
          ((x.member name).client.listen x.world.store key count).1)
      (x.play (.hear name key count)) := by
  show Deed x name _ _ (x.hear name _ count)
  unfold hear
  rw [job?_eq_state?, TaskSet.state?_idOf]
  cases h : (x.member name).client.tasks.at? key with
  | none =>
    have hlisten : (x.member name).client.listen x.world.store key count =
        (none, (x.member name).client) := by
      rw [Client.listen, h]
    rw [hlisten]
    exact deed_lookups x name x.lookups
  | some job =>
    have hlisten : (x.member name).client.listen x.world.store key count =
        (x.member name).client.hear x.world.store
          ((x.member name).client.tasks.idOf key) count job := by
      rw [Client.listen, h]
    rw [hlisten]
    exact deed_withMember x name _ _

theorem play_look_of_none {n : Nat} (h : x.lookups[n]? = none) : x.play (.look n) = x := by
  show x.look n = x
  rw [look, h]

theorem play_look_of_some {n : Nat} {l : Lookup} (h : x.lookups[n]? = some (name, l)) :
    x.play (.look n) = x.setLookup n name (l.look (x.member name)) := by
  show x.look n = _
  rw [look, h]

theorem play_look (x : Traffic) (n : Nat) :
    ∃ lookups, x.play (.look n) = { x with lookups := lookups } := by
  cases h : x.lookups[n]? with
  | none => exact ⟨x.lookups, play_look_of_none h⟩
  | some p => exact ⟨_, play_look_of_some h⟩

theorem play_goOn_of_none {n : Nat} (h : x.lookups[n]? = none) : x.play (.goOn n) = x := by
  show x.goOn n = x
  rw [goOn, h]

theorem play_goOn_of_some {n : Nat} {l : Lookup} (h : x.lookups[n]? = some (name, l)) :
    x.play (.goOn n) =
      (x.withMember name (l.step (x.member name) x.world.store x.world.now).2.1
        (l.step (x.member name) x.world.store x.world.now).2.2).setLookup n name
          (l.step (x.member name) x.world.store x.world.now).1 := by
  show x.goOn n = _
  rw [goOn, h]

theorem deed_goOn {n : Nat} {l : Lookup} (h : x.lookups[n]? = some (name, l)) :
    Deed x name (l.step (x.member name) x.world.store x.world.now).2.1
      (l.step (x.member name) x.world.store x.world.now).2.2 (x.play (.goOn n)) := by
  rw [play_goOn_of_some h]
  exact ⟨rfl, rfl, fun other => member_withMember x name other _ _⟩

end Deeds

/-! ### Order -/

/-- Whether the store and all clients are in order. -/
structure Orderly (x : Traffic) : Prop where
  store : x.world.store.entries.Sorted
  members : ∀ name, (x.member name).client.Orderly

section Order
variable {x y : Traffic} {name : String} {s : Store} {d : CachedClient}

theorem orderly_empty : Orderly {} where
  store := Dict.sorted_nil
  members _ := Client.orderly_empty

theorem Deed.orderly (h : Deed x name s d y) (hx : x.Orderly) (hs : s.entries.Sorted)
    (hd : d.client.Orderly) : y.Orderly where
  store := by
    rw [h.store]
    exact hs
  members other := by
    rw [h.member]
    split
    · exact hd
    · exact hx.members other

/-- What spares nothing keeps the store in order still. -/
theorem Orderly.sorted (hx : x.Orderly) {now : Nat}
    (h : Store.Spares now (fun _ => False) x.world.store s) : s.entries.Sorted :=
  h.sorted hx.store

theorem Orderly.lookup (hx : x.Orderly) (l : Lookup) :
    (l.step (x.member name) x.world.store x.world.now).2.2.client.Orderly := by
  rcases l.client_step (x.member name) x.world.store x.world.now with
    hsame | ⟨node, hwatch⟩
  · rw [hsame]
    exact hx.members name
  · rw [hwatch]
    exact (hx.members name).watch node .cache

theorem Orderly.play_world (hx : x.Orderly) (a : World.Action) : (x.play (.world a)).Orderly := by
  cases a with
  | store op =>
    refine (deed_store x "" _).orderly hx ?_ (hx.members "")
    cases op with
    | put key value ttl => exact hx.sorted (Store.spares_put id)
    | get key => exact hx.sorted (Store.spares_get key)
    | refresh key ttl => exact hx.sorted (Store.spares_refresh id)
    | delete key => exact hx.sorted (Store.spares_delete id)
    | scan root => exact hx.sorted (Store.spares_scan root)
    | sweep => exact hx.sorted Store.spares_sweep
    | setAvailable available => exact hx.store
  | advance ms => exact hx
  | sleep ms => exact hx
  | discover m service => exact hx
  | init m config =>
    exact (deed_withMember x m _ _).orderly hx hx.store ((hx.members m).init config)
  | register m i =>
    exact (deed_withMember x m _ _).orderly hx (hx.sorted (Client.spares_register id))
      ((hx.members m).register i)
  | unregister m i =>
    refine (deed_withMember x m _ _).orderly hx ?_ ?_
    · rw [store_unregister]
      exact hx.sorted (Client.spares_unregister id)
    · rw [client_unregister]
      exact (hx.members m).unregister i
  | ask m service =>
    exact (deed_store x m _).orderly hx (hx.sorted (Client.spares_discover service)) (hx.members m)
  | heartBeat m =>
    exact (deed_withMember x m _ _).orderly hx hx.store (hx.members m).heartBeat
  | renew m =>
    exact (deed_store x m _).orderly hx (hx.sorted (Client.spares_renew fun _ _ => id))
      (hx.members m)
  | watch m node tag =>
    refine (deed_withMember x m _ _).orderly hx ?_ ?_
    · rw [store_watch]
      exact hx.sorted (Client.spares_watch node _)
    · rw [client_watch]
      exact (hx.members m).watch node _
  | clearCache m => exact (deed_withMember x m _ _).orderly hx hx.store (hx.members m)
  | destroy m =>
    exact (deed_withMember x m _ _).orderly hx
      (hx.sorted (Client.spares_takenBack fun _ _ => id)) 
      ((hx.members m).destroy x.world.store x.world.now)

/-- **Every move keeps order.** -/
theorem Orderly.play (hx : x.Orderly) (move : Move) : (x.play move).Orderly := by
  cases move with
  | world a => exact hx.play_world a
  | elapse ms => exact ⟨hx.store, hx.members⟩
  | due m key =>
    exact (deed_due x m key).orderly hx (hx.sorted (Client.spares_due (fun _ _ => id) key))
      ((hx.members m).due key)
  | hear m key count =>
    refine (deed_hear x m key count).orderly hx hx.store ?_
    rw [client_notify]
    exact (hx.members m).listen key count
  | discover m service => exact ⟨hx.store, hx.members⟩
  | look n =>
    obtain ⟨lookups, hlook⟩ := play_look x n
    rw [hlook]
    exact ⟨hx.store, hx.members⟩
  | goOn n =>
    cases hlookup : x.lookups[n]? with
    | none =>
      rw [play_goOn_of_none hlookup]
      exact hx
    | some p =>
      obtain ⟨m, l⟩ := p
      exact (deed_goOn hlookup).orderly hx (hx.sorted l.spares_step) (hx.lookup l)

theorem Orderly.plays (hx : x.Orderly) (moves : List Move) : (x.plays moves).Orderly := by
  induction moves generalizing x with
  | nil => exact hx
  | cons move rest ih => exact ih (hx.play move)

/-! ### Every action is a move -/

/-- A task that is picked by its place is picked by its key, or does not run. -/
theorem Orderly.idOf_or (hx : x.Orderly) (name : String) (id : TaskId) :
    x.job? name id = none ∨ ∃ key, (x.member name).client.tasks.idOf key = id := by
  rw [job?_eq_state?]
  cases hstate : (x.member name).client.tasks.state? id with
  | none => exact .inl rfl
  | some job => exact .inr ((hx.members name).tasks.tidy.idOf_of_state? hstate)

theorem Orderly.step_play (hx : x.Orderly) (a : Action) : ∃ move, x.step a = x.play move := by
  have hstill : x.play (.elapse 0) = x := rfl
  cases a with
  | world a => exact ⟨.world a, rfl⟩
  | elapse ms => exact ⟨.elapse ms, rfl⟩
  | due m id =>
    rcases hx.idOf_or m id with hnone | ⟨key, rfl⟩
    · refine ⟨.elapse 0, ?_⟩
      rw [hstill, step, due, hnone]
    · exact ⟨.due m key, rfl⟩
  | hear m id count =>
    rcases hx.idOf_or m id with hnone | ⟨key, rfl⟩
    · refine ⟨.elapse 0, ?_⟩
      rw [hstill, step, hear, hnone]
    · exact ⟨.hear m key count, rfl⟩
  | discover m service => exact ⟨.discover m service, rfl⟩
  | look n => exact ⟨.look n, rfl⟩
  | goOn n => exact ⟨.goOn n, rfl⟩

/-- **Whatever clients do, they do it by moves.** -/
theorem Orderly.run_plays (hx : x.Orderly) (actions : List Action) :
    ∃ moves, x.run actions = x.plays moves := by
  induction actions generalizing x with
  | nil => exact ⟨[], rfl⟩
  | cons a rest ih =>
    obtain ⟨move, hmove⟩ := hx.step_play a
    obtain ⟨moves, hmoves⟩ := ih (hx.play move)
    refine ⟨move :: moves, ?_⟩
    rw [run, hmove]
    exact hmoves

end Order
end Traffic
end RemoteCall.Registry
