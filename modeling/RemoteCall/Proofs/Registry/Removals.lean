import RemoteCall.Proofs.Registry.Minds
import RemoteCall.Registry.Sentry

/-! What a watch hears of a removal.

Whatever is done to the store, what leaves it is announced, and nothing else is
(`Becomes.loses_iff`). A watch takes the announcements in their order and passes none that names its
record, so one that was made since it began to listen is still before it, or it is over (`Posted`).
An action can touch the watch of a node in a few ways only (`Touches`). From these it follows that
what stands goes on to stand or ends with one call of its listener (`Posted.step`), and that what is
over calls nobody any more (`Over.run`). -/
namespace RemoteCall.Registry

/-! ### The store -/

namespace Store
variable {now : Nat} {term : Option Nat} {s t u : Store}

/-- Whether the entry under a key was dropped on the way from one store to another. -/
def Loses (s t : Store) (key : String) : Prop :=
  ∃ (u : Store) (event : Event),
    s.Becomes u ∧ u.Holds key ∧ event.key = key ∧ (u.drop event).Becomes t

/-- What has left the store once has left it ever after. -/
theorem Loses.trans {key : String} (h : s.Loses t key) (h' : Becomes t u) : s.Loses u key := by
  obtain ⟨v, event, hbefore, hheld, hkey, hafter⟩ := h
  exact ⟨v, event, hbefore, hheld, hkey, hafter.trans h'⟩

theorem Becomes.loses_trans {key : String} (h : Becomes s t) (h' : t.Loses u key) :
    s.Loses u key := by
  obtain ⟨v, event, hbefore, hheld, hkey, hafter⟩ := h'
  exact ⟨v, event, h.trans hbefore, hheld, hkey, hafter⟩

/-- **What has left the store is announced**, and what is announced has left it. -/
theorem Becomes.loses_iff (h : Becomes s t) {key : String} :
    s.Loses t key ↔ ∃ e ∈ t.events.drop s.events.length, e.key = key := by
  constructor
  · rintro ⟨u, event, hbefore, -, hkey, hafter⟩
    obtain ⟨old, hold⟩ := hbefore.announces
    obtain ⟨news, hnews⟩ := hafter.announces
    refine ⟨event, ?_, hkey⟩
    have hevents : t.events = s.events ++ (old ++ event :: news) := by
      rw [hnews.events, Store.drop, hold.events, List.append_assoc, List.append_assoc]
      rfl
    rw [hevents, List.drop_left]
    exact List.mem_append_right _ List.mem_cons_self
  · induction h with
    | refl =>
      rintro ⟨e, he, -⟩
      rw [List.drop_length] at he
      cases he
    | @drop t h event hheld ih =>
      rintro ⟨e, he, hkey⟩
      obtain ⟨news, hnews⟩ := h.announces
      have hevents : (t.drop event).events = s.events ++ (news ++ [event]) := by
        rw [Store.drop, hnews.events, List.append_assoc]
      rw [hevents, List.drop_left] at he
      rcases List.mem_append.1 he with hold | hlast
      · have hlost := ih ⟨e, by rwa [hnews.events, List.drop_left], hkey⟩
        exact hlost.trans (.drop .refl hheld)
      · obtain rfl := List.mem_singleton.1 hlast
        exact ⟨t, e, h, hkey ▸ hheld, hkey, .refl⟩
    | write _ key e ih => exact fun hended => (ih hended).trans (.write .refl key e)
    | switch _ available ih => exact fun hended => (ih hended).trans (.switch .refl available)

/-- What was there and is there no more has left the store. -/
theorem Becomes.loses_of_gone (h : Becomes s t) {key : String} (hheld : s.Holds key)
    (hgone : ¬t.Holds key) : s.Loses t key := by
  obtain ⟨news, hnews⟩ := h.announces
  obtain ⟨e, he, hkey⟩ := (hnews.kept key hheld).resolve_left hgone
  exact h.loses_iff.2 ⟨e, by rwa [hnews.events, List.drop_left], hkey⟩

theorem becomes_put (key value : String) (ttl : Nat) :
    Becomes s (s.put now key value ttl).2 := by
  unfold put online
  split
  · exact .write .refl key _
  · exact .refl

theorem becomes_refresh (key : String) (ttl : Nat) : Becomes s (s.refresh now key ttl).2 :=
  (turn_refresh key rfl : Turn now (some ttl) s _).becomes

theorem becomes_apply (op : Op) : Becomes s (s.apply now op).2 := by
  cases op with
  | put key value ttl => exact becomes_put key value ttl
  | get key => exact (turn_get key : Turn now none s _).becomes
  | refresh key ttl => exact becomes_refresh key ttl
  | delete key => exact (turn_delete key : Turn now none s _).becomes
  | scan root => exact (turn_scan root : Turn now none s _).becomes
  | sweep => exact (turn_sweep : Turn now none s _).becomes
  | setAvailable available => exact .switch .refl available

end Store

namespace Client
open Store (Becomes)
variable {now ttl : Nat} {s : Store} {c : Client}

theorem becomes_renewOne (node : String) (i : Instance) :
    Becomes s (renewOne s now ttl node i).2 := by
  have hrefresh : Becomes s (s.refresh now (recordKey node) ttl).2 := Store.becomes_refresh _ _
  unfold renewOne
  split
  · next h => rwa [h] at hrefresh
  · next h =>
    rw [h] at hrefresh
    exact hrefresh.trans (Store.becomes_put _ _ _)
  · next h => rwa [h] at hrefresh

theorem becomes_renewAll (own : Dict Instance) : Becomes s (renewAll s now ttl own).2 := by
  induction own generalizing s with
  | nil => exact .refl
  | cons p rest ih => exact (becomes_renewOne p.1 p.2).trans ih

theorem becomes_renew : Becomes s (c.renew s now).2 := by
  unfold renew
  split
  · exact .refl
  · exact becomes_renewAll c.own

theorem becomes_due (key : String) : Becomes s (c.due s now key).1 := by
  unfold due
  split
  · next job _ =>
    cases job with
    | watch w => exact .refl
    | sweeper period next =>
      unfold runDue
      dsimp only
      split
      · exact .refl
      · split
        · exact .refl
        · exact (Store.turn_sweep : Store.Turn now none s _).becomes
    | heartbeat period next ttl =>
      unfold runDue
      dsimp only
      split
      · exact .refl
      · split
        · exact .refl
        · exact becomes_renewAll c.own
  · exact .refl

end Client

/-! ### One watch -/

namespace Watch
variable {v w : Watch} {events : List Event} {count : Nat}

theorem lt_of_mem_drop {n : Nat} {e : Event} (h : e ∈ events.drop n) : n < events.length := by
  have hpos := List.length_pos_of_mem h
  rw [List.length_drop] at hpos
  omega

/-- A watch goes on behind an announcement of something else. -/
theorem of_step_listen (h : w.step events = .listen v) :
    v = { w with heard := w.heard + 1 } ∧
      ∃ e, events.drop w.heard = e :: events.drop (w.heard + 1) ∧ e.key ≠ recordKey w.node := by
  unfold step at h
  split at h
  · cases h
  · split at h
    · cases h
    · next e he =>
      split at h
      · cases h
      · next hkey =>
        obtain ⟨hlt, rfl⟩ := List.getElem?_eq_some_iff.1 he
        exact ⟨(Next.listen.inj h).symm, _, List.drop_eq_getElem_cons hlt, hkey⟩

/-- A watch is over if it may have missed something, or at an announcement of its record. -/
theorem of_step_fire (h : w.step events = .fire) :
    w.heard + eventCapacity < events.length ∨
      ∃ e, events.drop w.heard = e :: events.drop (w.heard + 1) ∧ e.key = recordKey w.node := by
  unfold step at h
  split at h
  · next hlags => exact .inl hlags
  · split at h
    · cases h
    · next e he =>
      split at h
      · next hkey =>
        obtain ⟨hlt, rfl⟩ := List.getElem?_eq_some_iff.1 he
        exact .inr ⟨_, List.drop_eq_getElem_cons hlt, hkey⟩
      · cases h

/-- **A watch passes nothing that names its record.** -/
theorem listenAll_passes (hheard : w.heard ≤ events.length)
    (h : w.listenAll events count = .listen v) :
    w.heard ≤ v.heard ∧ v.heard ≤ events.length ∧
      ∀ e ∈ events.drop w.heard, e.key = recordKey w.node → e ∈ events.drop v.heard := by
  induction count generalizing w with
  | zero =>
    obtain rfl := Next.listen.inj h
    exact ⟨Nat.le_refl _, hheard, fun _ he _ => he⟩
  | succ count ih =>
    rw [listenAll] at h
    split at h
    · obtain rfl := Next.listen.inj h
      exact ⟨Nat.le_refl _, hheard, fun _ he _ => he⟩
    · cases h
    · next u hu =>
      obtain ⟨rfl, first, hdrop, hother⟩ := of_step_listen hu
      have hlt := lt_of_mem_drop (hdrop ▸ List.mem_cons_self : first ∈ events.drop w.heard)
      obtain ⟨hle, hv, hpassed⟩ := ih (w := { w with heard := w.heard + 1 }) hlt h
      refine ⟨Nat.le_of_succ_le hle, hv, fun e he hkey => hpassed e ?_ hkey⟩
      rw [hdrop] at he
      -- What it has passed last names another key.
      refine (List.mem_cons.1 he).resolve_left ?_
      rintro rfl
      exact hother hkey

theorem cause_of_fire (h : w.listenAll events count = .fire) :
    w.heard + eventCapacity < events.length ∨
      ∃ e ∈ events.drop w.heard, e.key = recordKey w.node := by
  induction count generalizing w with
  | zero => cases h
  | succ count ih =>
    rw [listenAll] at h
    split at h
    · cases h
    · next hu =>
      obtain hlags | ⟨e, hdrop, hkey⟩ := of_step_fire hu
      · exact .inl hlags
      · exact .inr ⟨e, hdrop ▸ List.mem_cons_self, hkey⟩
    · next u hu =>
      obtain ⟨rfl, first, hdrop, -⟩ := of_step_listen hu
      obtain hlags | ⟨e, he, hkey⟩ := ih h
      · dsimp only at hlags
        exact .inl (by omega)
      · exact .inr ⟨e, hdrop ▸ List.mem_cons_of_mem _ he, hkey⟩

/-- A watch that takes everything there is comes to an announcement of its record. -/
theorem listenAll_of_all (hcount : events.length ≤ count)
    (h : ∃ e ∈ events.drop w.heard, e.key = recordKey w.node) :
    w.listenAll events count = .fire := by
  obtain ⟨e, he, hkey⟩ := h
  have hlt := lt_of_mem_drop he
  -- If it has missed something, it is over with the next announcement it takes.
  by_cases hbehind : events.length ≤ w.heard + eventCapacity
  · refine listenAll_fire hbehind ?_ hkey
    rwa [List.take_of_length_le (Nat.le_trans (by rw [List.length_drop]; omega) hcount)]
  · obtain ⟨count, rfl⟩ := Nat.exists_eq_add_of_lt (Nat.lt_of_lt_of_le
      (Nat.zero_lt_of_lt hlt) hcount)
    rw [Nat.zero_add, listenAll, step, if_pos (Nat.lt_of_not_le hbehind)]

end Watch

/-! ### What an action does to the watch of a node -/

namespace Client
variable {now count : Nat} {s : Store} {c : Client} {node key : String} {n : Notice} {w : Watch}

/-- Who is told of a node is told by the watch of the node. -/
theorem Orderly.key_of_listen (h : c.Orderly) (hn : (c.listen s key count).1 = some n) :
    key = watchTask n.node := by
  unfold Client.listen at hn
  split at hn
  · next job hjob =>
    have hkey := h.tasks.keyed key job hjob
    cases job with
    | sweeper period next => cases hn
    | heartbeat period next ttl => cases hn
    | watch w =>
      unfold hear at hn
      dsimp only at hn
      cases hnext : w.listenAll s.events count with
      | wait => rw [hnext] at hn; cases hn
      | listen v => rw [hnext] at hn; cases hn
      | fire =>
        rw [hnext] at hn
        exact hkey.trans (congrArg watchTask (congrArg Notice.node (Option.some.inj hn)))
  · cases hn

theorem listen_of_watch (h : c.tasks.at? key = some (.watch w)) (s : Store) (count : Nat) :
    c.listen s key count = c.goOn (c.tasks.idOf key) w (w.listenAll s.events count) := by
  rw [listen, h]
  rfl

end Client

namespace Sentry
variable {x y : Sentry} {node : String} {listener : Listener} {id : TaskId} {a : Action}

/-- Whether the tasks and the instances of the client are in order. -/
def Orderly (x : Sentry) : Prop := x.client.Orderly

/-- The task that runs under the key of the watch of a node. -/
def post (x : Sentry) (node : String) : Option Job := x.client.tasks.at? (Client.watchTask node)

/-- What an action does to the watch of a node. -/
inductive Touches (node : String) (x : Sentry) : Action → Sentry → Prop where
  /-- Nothing, and nobody is told of the node. -/
  | apart {a : Action} {y : Sentry} (post : y.post node = x.post node) (news : List Notice)
      (told : y.told = x.told ++ news) (other : ∀ n ∈ news, n.node ≠ node) : Touches node x a y
  /-- It hears something else. -/
  | listens {id : TaskId} {count : Nat} {w v : Watch} {y : Sentry}
      (before : x.post node = some (.watch w))
      (heard : w.listenAll x.store.events count = .listen v)
      (post : y.post node = some (.watch v)) (store : y.store = x.store) (told : y.told = x.told) :
      Touches node x (.hear id count) y
  /-- It is over, and calls its listener. -/
  | fires {id : TaskId} {count : Nat} {w : Watch} {y : Sentry}
      (before : x.post node = some (.watch w))
      (heard : w.listenAll x.store.events count = .fire) (post : y.post node = none)
      (store : y.store = x.store) (told : y.told = x.told ++ [w.notice]) :
      Touches node x (.hear id count) y
  /-- It begins. -/
  | begins {listener : Listener} {y : Sentry} (before : x.post node = none)
      (post : y.post node = some (.watch ⟨node, listener, x.store.events.length⟩))
      (told : y.told = x.told) : Touches node x (.watch node listener) y
  /-- The record is gone, and a listener is called without any watch. -/
  | gone {listener : Listener} {y : Sentry} (before : x.post node = none)
      (post : y.post node = none) (told : y.told = x.told ++ [⟨listener, node⟩]) :
      Touches node x (.watch node listener) y

/-- Nobody is told of anything. -/
theorem Touches.silent (hpost : y.post node = x.post node) (htold : y.told = x.told) :
    Touches node x a y :=
  .apart hpost [] (by rw [htold, List.append_nil]) (List.forall_mem_nil _)

theorem job?_eq_state? (x : Sentry) (id : TaskId) : x.job? id = x.client.tasks.state? id := by
  unfold job? TaskSet.state?
  cases x.client.tasks.phase? id with
  | none => rfl
  | some p => cases p <;> rfl

theorem job?_idOf (x : Sentry) (key : String) :
    x.job? (x.client.tasks.idOf key) = x.client.tasks.at? key := by
  rw [job?_eq_state?, TaskSet.state?_idOf]

/-- A task that is picked by its place is picked by its key, or does not run. -/
theorem Orderly.picked (hx : x.Orderly) (id : TaskId) :
    x.job? id = none ∨ ∃ key, x.client.tasks.idOf key = id := by
  rw [job?_eq_state?]
  cases hstate : x.client.tasks.state? id with
  | none => exact .inl rfl
  | some job => exact .inr (Client.Orderly.tasks hx |>.tidy.idOf_of_state? hstate)

theorem due_idOf (x : Sentry) (key : String) :
    x.due (x.client.tasks.idOf key) =
      { x with
        store := (x.client.due x.store x.now key).1
        client := (x.client.due x.store x.now key).2 } := by
  rw [due, job?_idOf, Client.due]
  cases x.client.tasks.at? key <;> rfl

theorem hear_idOf (x : Sentry) (key : String) (count : Nat) :
    x.hear (x.client.tasks.idOf key) count =
      { x with client := (x.client.listen x.store key count).2 }.tell?
        (x.client.listen x.store key count).1 := by
  rw [hear, job?_idOf, Client.listen]
  cases x.client.tasks.at? key with
  | none => exact congrArg (Sentry.mk _ _ _) (List.append_nil _).symm
  | some job => rfl

theorem Orderly.due_eq (hx : x.Orderly) (id : TaskId) :
    x.due id = x ∨ ∃ key, x.due id =
      { x with
        store := (x.client.due x.store x.now key).1
        client := (x.client.due x.store x.now key).2 } := by
  obtain hnone | ⟨key, rfl⟩ := hx.picked id
  · exact .inl (by rw [due, hnone])
  · exact .inr ⟨key, x.due_idOf key⟩

theorem Orderly.hear_eq (hx : x.Orderly) (id : TaskId) (count : Nat) :
    x.hear id count = x ∨ ∃ key, x.hear id count =
      { x with client := (x.client.listen x.store key count).2 }.tell?
        (x.client.listen x.store key count).1 := by
  obtain hnone | ⟨key, rfl⟩ := hx.picked id
  · exact .inl (by rw [hear, hnone])
  · exact .inr ⟨key, x.hear_idOf key count⟩

/-! Each kind of action. -/

theorem Orderly.touches_hear (hx : x.Orderly) (id : TaskId) (count : Nat) :
    Touches node x (.hear id count) (x.hear id count) := by
  obtain hsame | ⟨key, hhear⟩ := hx.hear_eq id count
  · rw [hsame]
    exact .silent rfl rfl
  rw [hhear]
  by_cases hkey : Client.watchTask node = key
  · subst hkey
    have hc : x.client.Orderly := hx
    cases hjob : x.client.tasks.at? (Client.watchTask node) with
    | none =>
      have hlisten : x.client.listen x.store (Client.watchTask node) count =
          (none, x.client) := by
        rw [Client.listen, hjob]
      rw [hlisten]
      exact .silent rfl (List.append_nil _)
    | some job =>
      obtain ⟨w, rfl, -⟩ := hc.watch_of_at? hjob
      rw [Client.listen_of_watch hjob]
      cases hnext : w.listenAll x.store.events count with
      | wait => exact .silent rfl (List.append_nil _)
      | listen v =>
        refine .listens hjob hnext ?_ rfl (List.append_nil _)
        exact (hc.tasks.tidy.at?_update hjob (.watch v) _).trans (if_pos rfl)
      | fire =>
        refine .fires hjob hnext ?_ rfl rfl
        exact (hc.tasks.tidy.at?_finish hjob _).trans (if_pos rfl)
  · -- The watch of another node may well tell somebody, but not of this one.
    refine .apart (Client.Orderly.at?_listen hx hkey) _ rfl fun n hn => ?_
    rintro rfl
    exact hkey (Client.Orderly.key_of_listen hx (Option.mem_toList.1 hn)).symm

theorem Orderly.touches_due (hx : x.Orderly) (id : TaskId) :
    Touches node x (.due id) (x.due id) := by
  obtain hsame | ⟨key, hdue⟩ := hx.due_eq id
  · rw [hsame]
    exact .silent rfl rfl
  rw [hdue]
  refine .silent ?_ rfl
  by_cases hkey : Client.watchTask node = key
  · subst hkey
    rw [Client.Orderly.due_of_watch hx (Client.watchTask_ne_sweeperTask node)
      (Client.watchTask_ne_heartbeatTask node)]
  · exact Client.Orderly.at?_due hx hkey

/-- A watch that runs already is left as it is. -/
theorem watch_of_running (h : x.client.tasks.isRunning (Client.watchTask node) = true)
    (listener : Listener) : x.watch node listener = (.ok (), x) := by
  rw [watch, Client.watch_of_running h]
  exact congrArg (Prod.mk _) (congrArg (Sentry.mk _ _ _) (List.append_nil _))

theorem Orderly.touches_watch (hx : x.Orderly) (other : String) (listener : Listener) :
    Touches node x (.watch other listener) (x.watch other listener).2 := by
  have hc : x.client.Orderly := hx
  cases hidle : x.client.tasks.at? (Client.watchTask other) with
  | some job =>
    have hruns : x.client.tasks.isRunning (Client.watchTask other) = true := by
      rw [TaskSet.isRunning_eq_isSome, hidle]
      rfl
    rw [watch_of_running hruns]
    exact .silent rfl rfl
  | none =>
    rw [watch]
    cases honline : x.store.available with
    | false =>
      rw [Client.watch_of_offline hidle honline]
      exact .silent rfl rfl
    | true =>
      cases hlive : x.store.live? x.now (recordKey other) with
      | none =>
        rw [Client.watch_of_gone hidle honline hlive]
        by_cases hother : other = node
        · subst hother
          exact .gone hidle hidle rfl
        · exact .apart rfl [⟨listener, other⟩] rfl (List.forall_mem_singleton.2 hother)
      | some e =>
        rw [Client.watch_of_live hidle honline hlive]
        have hspawn := hc.tasks.tidy.at?_spawn (Client.watchTask other)
          (.watch ⟨other, listener, x.store.events.length⟩)
        by_cases hother : other = node
        · subst hother
          refine .begins hidle ((hspawn _).trans ?_) (List.append_nil _)
          rw [if_pos rfl, hidle]
          rfl
        · refine .silent ((hspawn _).trans (if_neg ?_)) (List.append_nil _)
          exact fun h => hother (Client.watchTask_inj h).symm

/-- **Every action but the end of the client touches the watch of a node in one of these ways.** -/
theorem Orderly.touches (hx : x.Orderly) (node : String) (ha : a ≠ .destroy) :
    Touches node x a (x.step a) := by
  have hc : x.client.Orderly := hx
  cases a with
  | elapse ms => exact .silent rfl rfl
  | store op => exact .silent rfl rfl
  | init config =>
    exact .silent ((hc.tasks.tidy.at?_spawn _ _ _).trans
      (if_neg (Client.watchTask_ne_sweeperTask node))) rfl
  | register i => exact .silent (congrArg (TaskSet.at? · _) (Client.tasks_register i)) rfl
  | unregister i => exact .silent rfl rfl
  | heartBeat => exact .silent (hc.at?_heartBeat (Client.watchTask_ne_heartbeatTask node)) rfl
  | renew => exact .silent rfl rfl
  | watch other listener => exact hx.touches_watch other listener
  | destroy => exact absurd rfl ha
  | due id => exact hx.touches_due id
  | hear id count => exact hx.touches_hear id count

/-- What is done to the store is done by one client or another. -/
theorem Orderly.becomes (hx : x.Orderly) (a : Action) : x.store.Becomes (x.step a).store := by
  cases a with
  | elapse ms => exact .refl
  | store op => exact Store.becomes_apply op
  | init config => exact .refl
  | register i => exact (Client.turn_register i).becomes
  | unregister i =>
    exact (Client.turn_unregister i :
      Store.Turn x.now none x.store (x.client.unregister x.store x.now i).2.1).becomes
  | heartBeat => exact .refl
  | renew => exact Client.becomes_renew
  | watch other listener =>
    have hturn := (Client.turn_watch other listener :
      Store.Turn x.now none x.store (x.client.watch x.store x.now other listener).2.1).becomes
    show x.store.Becomes (x.watch other listener).2.store
    unfold watch
    dsimp only
    split <;> exact hturn
  | destroy => exact (Client.turn_destroy : Store.Turn x.now none _ _).becomes
  | due id =>
    show x.store.Becomes (x.due id).store
    obtain hsame | ⟨key, hdue⟩ := hx.due_eq id
    · rw [hsame]
      exact .refl
    · rw [hdue]
      exact Client.becomes_due key
  | hear id count =>
    show x.store.Becomes (x.hear id count).store
    obtain hsame | ⟨key, hhear⟩ := hx.hear_eq id count
    · rw [hsame]
      exact .refl
    · rw [hhear]
      exact .refl

/-- **Every action keeps order.** -/
theorem Orderly.step (hx : x.Orderly) (a : Action) : (x.step a).Orderly := by
  have hc : x.client.Orderly := hx
  cases a with
  | elapse ms => exact hx
  | store op => exact hx
  | init config => exact hc.init config
  | register i => exact hc.register i
  | unregister i => exact (hc.unregister i : (x.client.unregister x.store x.now i).2.2.Orderly)
  | heartBeat => exact hc.heartBeat
  | renew => exact hx
  | watch other listener =>
    have hwatch : (x.watch other listener).2.client =
        (x.client.watch x.store x.now other listener).2.2 := by
      unfold Sentry.watch
      dsimp only
      split <;> rfl
    show (x.watch other listener).2.client.Orderly
    rw [hwatch]
    exact hc.watch other listener
  | destroy => exact hc.destroy x.store x.now
  | due id =>
    show (x.due id).Orderly
    obtain hsame | ⟨key, hdue⟩ := hx.due_eq id
    · rw [hsame]
      exact hx
    · rw [hdue]
      exact hc.due key
  | hear id count =>
    show (x.hear id count).Orderly
    obtain hsame | ⟨key, hhear⟩ := hx.hear_eq id count
    · rw [hsame]
      exact hx
    · rw [hhear]
      exact hc.listen key count

theorem Orderly.run (hx : x.Orderly) (actions : List Action) : (x.run actions).Orderly := by
  induction actions generalizing x with
  | nil => exact hx
  | cons a rest ih => exact ih (hx.step a)

theorem Orderly.becomes_run (hx : x.Orderly) (actions : List Action) :
    x.store.Becomes (x.run actions).store := by
  induction actions generalizing x with
  | nil => exact .refl
  | cons a rest ih => exact (hx.becomes a).trans (ih (hx.step a))

/-! ### A watch that stands -/

section Calls
variable {news : List Notice}

theorem calls_append (h : y.told = x.told ++ news) (node : String) (listener : Listener) :
    y.calls node listener = x.calls node listener + news.count ⟨listener, node⟩ := by
  rw [calls, h, List.count_append]
  rfl

/-- News of other nodes are no calls for this one. -/
theorem calls_of_other (h : y.told = x.told ++ news) (hother : ∀ n ∈ news, n.node ≠ node)
    (listener : Listener) : y.calls node listener = x.calls node listener := by
  rw [calls_append h, List.count_eq_zero_of_not_mem fun hmem => hother _ hmem rfl, Nat.add_zero]

theorem calls_of_told (h : y.told = x.told) : y.calls node listener = x.calls node listener :=
  congrArg (List.count _) h

end Calls

/-- A watch of a node for a listener runs. It has listened since the store was `s`, and whatever was
announced of the record since is still before it. -/
structure Posted (node : String) (listener : Listener) (s : Store) (x : Sentry) (w : Watch) :
    Prop where
  post : x.post node = some (.watch w)
  target : w.node = node ∧ w.listener = listener
  since : s.Becomes x.store
  behind : s.events.length ≤ w.heard
  heard : w.heard ≤ x.store.events.length
  passed : ∀ e ∈ x.store.events.drop s.events.length, e.key = recordKey node →
    e ∈ x.store.events.drop w.heard

variable {s : Store} {w : Watch}

/-- What is announced is still before it. -/
theorem Posted.grow (h : Posted node listener s x w) (hpost : y.post node = x.post node)
    (hstore : x.store.Becomes y.store) : Posted node listener s y w := by
  obtain ⟨news, hnews⟩ := hstore.announces
  refine ⟨hpost.trans h.post, h.target, h.since.trans hstore, h.behind, ?_, fun e he hkey => ?_⟩
  · rw [hnews.events, List.length_append]
    exact Nat.le_add_right_of_le h.heard
  · rw [hnews.events, List.drop_append_of_le_length (Nat.le_trans h.behind h.heard)] at he
    rw [hnews.events, List.drop_append_of_le_length h.heard]
    rcases List.mem_append.1 he with hold | hnew
    · exact List.mem_append_left _ (h.passed e hold hkey)
    · exact List.mem_append_right _ hnew

/-- A removal of the record since it listened is still before it. -/
theorem Posted.pending (h : Posted node listener s x w)
    (hlost : s.Loses x.store (recordKey node)) :
    ∃ e ∈ x.store.events.drop w.heard, e.key = recordKey w.node := by
  obtain ⟨e, he, hkey⟩ := h.since.loses_iff.1 hlost
  exact ⟨e, h.passed e he hkey, h.target.1.symm ▸ hkey⟩

/-- **What an action does to a watch that stands**: it stands, or it is over for a reason, and its
listener has been called. -/
theorem Posted.step (h : Posted node listener s x w) (hx : x.Orderly) (ha : a ≠ .destroy) :
    (∃ v, Posted node listener s (x.step a) v ∧
      (x.step a).calls node listener = x.calls node listener) ∨
    (x.step a).post node = none ∧
      (x.step a).calls node listener = x.calls node listener + 1 ∧
      (x.lags w = true ∨ s.Loses x.store (recordKey node)) := by
  have htouches := hx.touches node ha
  have hstore := hx.becomes a
  generalize x.step a = y at htouches hstore ⊢
  cases htouches with
  | apart hpost news htold hother =>
    exact .inl ⟨w, h.grow hpost hstore, calls_of_other htold hother listener⟩
  | @listens id count w' v _ hbefore hheard hpost hsame htold =>
    obtain rfl := Job.watch.inj (Option.some.inj (h.post.symm.trans hbefore))
    obtain ⟨hle, hv, hpassed⟩ := Watch.listenAll_passes h.heard hheard
    obtain ⟨hnode, hlistener⟩ := Watch.target_of_listenAll hheard
    refine .inl ⟨v, ⟨hpost, ⟨hnode.trans h.target.1, hlistener.trans h.target.2⟩,
      h.since.trans hstore, Nat.le_trans h.behind hle, hsame ▸ hv, fun e he hkey => ?_⟩,
      calls_of_told htold⟩
    rw [hsame] at he ⊢
    exact hpassed e (h.passed e he hkey) (h.target.1.symm ▸ hkey)
  | @fires id count w' _ hbefore hheard hpost hsame htold =>
    obtain rfl := Job.watch.inj (Option.some.inj (h.post.symm.trans hbefore))
    refine .inr ⟨hpost, ?_, ?_⟩
    · rw [calls_append htold, Watch.notice, h.target.1, h.target.2, List.count_singleton_self]
    · rcases Watch.cause_of_fire hheard with hlags | ⟨e, he, hkey⟩
      · exact .inl (decide_eq_true hlags)
      · refine .inr (h.since.loses_iff.2 ⟨e, ?_, h.target.1 ▸ hkey⟩)
        exact List.drop_subset_drop_left _ h.behind he
  | begins hbefore _ _ => cases h.post.symm.trans hbefore
  | gone hbefore _ _ => cases h.post.symm.trans hbefore

/-! ### A watch that is over -/

/-- Whether no watch of a node runs for a listener. -/
def Over (node : String) (listener : Listener) (x : Sentry) : Prop :=
  ∀ w, x.post node = some (.watch w) → w.listener ≠ listener

theorem over_of_none (h : x.post node = none) : Over node listener x := fun w hw => by
  rw [h] at hw
  cases hw

/-- Whether an action neither ends the client nor asks for a watch of the node. -/
def Action.Spares (node : String) (a : Action) : Prop :=
  a ≠ .destroy ∧ ∀ listener, a ≠ .watch node listener

/-- Whether an action neither ends the client nor asks for a watch of the node for the listener. -/
def Action.Keeps (node : String) (listener : Listener) (a : Action) : Prop :=
  a ≠ .destroy ∧ a ≠ .watch node listener

/-- **A watch that is over calls nobody any more.** -/
theorem Over.step (h : Over node listener x) (hx : x.Orderly) (ha : a.Keeps node listener) :
    Over node listener (x.step a) ∧ (x.step a).calls node listener = x.calls node listener := by
  have htouches := hx.touches node ha.1
  generalize x.step a = y at htouches ⊢
  cases htouches with
  | apart hpost news htold hother =>
    exact ⟨fun w hw => h w (hpost ▸ hw), calls_of_other htold hother listener⟩
  | @listens id count w v _ hbefore hheard hpost _ htold =>
    refine ⟨fun u hu => ?_, calls_of_told htold⟩
    obtain rfl := Job.watch.inj (Option.some.inj (hpost.symm.trans hu))
    rw [(Watch.target_of_listenAll hheard).2]
    exact h w hbefore
  | @fires id count w _ hbefore _ hpost _ htold =>
    refine ⟨over_of_none hpost, ?_⟩
    rw [calls_append htold, List.count_eq_zero_of_not_mem, Nat.add_zero]
    intro hmem
    exact h w hbefore (congrArg Notice.listener (List.mem_singleton.1 hmem)).symm
  | @begins other _ _ hpost htold =>
    refine ⟨fun w hw => ?_, calls_of_told htold⟩
    obtain rfl := Job.watch.inj (Option.some.inj (hpost.symm.trans hw))
    rintro rfl
    exact ha.2 rfl
  | @gone other _ _ hpost htold =>
    refine ⟨over_of_none hpost, ?_⟩
    rw [calls_append htold, List.count_eq_zero_of_not_mem, Nat.add_zero]
    intro hmem
    obtain rfl := congrArg Notice.listener (List.mem_singleton.1 hmem)
    exact ha.2 rfl

theorem Over.run (h : Over node listener x) (hx : x.Orderly) {late : List Action}
    (hlate : ∀ a ∈ late, a.Keeps node listener) :
    Over node listener (x.run late) ∧ (x.run late).calls node listener = x.calls node listener := by
  induction late generalizing x with
  | nil => exact ⟨h, rfl⟩
  | cons a rest ih =>
    obtain ⟨ha, hrest⟩ := List.forall_mem_cons.1 hlate
    obtain ⟨hstep, hcalls⟩ := h.step hx ha
    obtain ⟨hrun, hsame⟩ := ih hstep (hx.step a) hrest
    exact ⟨hrun, hsame.trans hcalls⟩

/-- While nobody asks for a watch of a node, none begins. -/
theorem Orderly.vacant_run (hx : x.Orderly) (h : x.post node = none) {between : List Action}
    (hbetween : ∀ a ∈ between, a.Spares node) (listener : Listener) :
    (x.run between).post node = none ∧
      (x.run between).calls node listener = x.calls node listener := by
  induction between generalizing x with
  | nil => exact ⟨h, rfl⟩
  | cons a rest ih =>
    obtain ⟨ha, hrest⟩ := List.forall_mem_cons.1 hbetween
    have hstep : (x.step a).post node = none ∧
        (x.step a).calls node listener = x.calls node listener := by
      have htouches := hx.touches node ha.1
      generalize x.step a = y at htouches ⊢
      cases htouches with
      | apart hpost news htold hother =>
        exact ⟨hpost.trans h, calls_of_other htold hother listener⟩
      | listens hbefore _ _ _ _ => cases h.symm.trans hbefore
      | fires hbefore _ _ _ _ => cases h.symm.trans hbefore
      | begins _ _ _ => exact absurd rfl (ha.2 _)
      | gone _ _ _ => exact absurd rfl (ha.2 _)
    obtain ⟨hrun, hsame⟩ := ih (hx.step a) hstep.1 hrest
    exact ⟨hrun, hsame.trans hstep.2⟩

end Sentry
end RemoteCall.Registry
