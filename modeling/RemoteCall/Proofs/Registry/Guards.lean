import RemoteCall.Proofs.Registry.Lists
import RemoteCall.Proofs.Registry.Outposts
import RemoteCall.Proofs.Registry.Rounds

/-! Who watches for a cache.

A watch that runs may have called its listener already. It guards its node only as long as it has
not (`Guarded`), and nobody can tell the two kinds apart by looking whether a watch runs; that
no watch of a node has called is known for certain only after none was found to run (`Unspent`).
Here is what actions do to both, to the watches that discoveries are about to start (`Search.Fits`)
and to the cache: of all that a client does only few things matter to them (`Shift`). -/
namespace RemoteCall.Registry

theorem TaskSet.length_spawn {σ : Type} (t : TaskSet σ) (key : String) (state : σ) :
    t.tasks.length ≤ (t.spawnIfAbsent key state).2.tasks.length := by
  rw [spawnIfAbsent_eq]
  split
  · exact Nat.le_refl _
  · show _ ≤ (t.tasks ++ [Phase.running state]).length
    rw [List.length_append]
    exact Nat.le_add_right _ _

/-! ### Renewals -/

theorem Round.turn_step {r : Round} {s : Store} {now : Nat} {term : Option Nat}
    (hkeyed : ∀ e ∈ r.left, e.1 = e.2.nodeKey) (hterm : term = some r.ttl) :
    Store.Turn now term s (r.step s now).2 := by
  unfold step
  split
  · exact .refl s
  · next node i rest hleft =>
    obtain rfl : node = i.nodeKey := hkeyed _ (hleft ▸ List.mem_cons_self)
    have hput : Store.Turn now term s
        (s.put now (recordKey i.nodeKey) (Client.recordOf i) r.ttl).2 := Store.turn_putRecord i hterm
    have hrefresh : Store.Turn now term s (s.refresh now (recordKey i.nodeKey) r.ttl).2 :=
      Store.turn_refresh _ hterm
    dsimp only
    split
    · exact hput
    · split <;> next hasked => rwa [hasked] at hrefresh

namespace Outpost
variable {o p : Outpost} {a : Action}

/-- Whether an action leaves the records to the clients, and this one to its cache: nobody else
watches with it, and it is not destroyed. -/
def lawful : Action → Bool
  | .store (.put key _ _) => !Store.under recordRoot key
  | .watch _ _ | .destroy => false
  | _ => true

/-- Every instance is kept under its own node key, and is renewed there. -/
structure Keyed (o : Outpost) : Prop where
  own : o.member.client.Keyed
  rounds : ∀ r ∈ o.rounds, ∀ e ∈ r.left, e.1 = e.2.nodeKey

theorem Course.keyed (h : Course o a p) (ho : o.Keyed) : p.Keyed where
  own := by
    cases h.settles with
    | same hown hconfig => exact fun e he => ho.own e (hown ▸ he)
    | init hown hconfig => exact fun e he => ho.own e (hown ▸ he)
    | register hclient => exact hclient ▸ Client.keyed_register ho.own _
    | unregister hown hconfig => exact fun e he => ho.own e (List.mem_filter.1 (hown ▸ he)).1
    | destroy hown hconfig => exact fun e he => absurd (hown ▸ he) List.not_mem_nil
  rounds := by
    have hbegun {beat : Option Beat} {ttl : Nat}
        (h : p.rounds = o.rounds ++ [{ beat := beat, ttl := ttl, left := o.member.client.own }]) :
        ∀ r ∈ p.rounds, ∀ e ∈ r.left, e.1 = e.2.nodeKey := by
      intro r hr
      rcases List.mem_append.1 (h ▸ hr) with hr | hr
      · exact ho.rounds r hr
      · obtain rfl := List.mem_singleton.1 hr
        exact ho.own
    cases h.renews with
    | same hrounds => exact hrounds ▸ ho.rounds
    | asked hconfig hrounds => exact hbegun hrounds
    | turn hjob hrounds => exact hbegun hrounds
    | goesOn hr hrounds =>
      intro r' hr' e he
      rcases List.mem_or_eq_of_mem_set (hrounds ▸ hr') with hold | rfl
      · exact ho.rounds r' hold e he
      · exact ho.rounds _ (List.mem_of_getElem? hr) e ((Round.goes_step _ _ _).mem_left he)

/-- **Every action is a turn of the store.** -/
theorem Course.turn (h : Course o a p) (hlawful : lawful a = true) (ho : o.Keyed) :
    Store.Turn o.now (o.term? a) o.store p.store := by
  cases h with
  | store op =>
    cases op with
    | put key value ttl => exact Store.turn_putOther (by simpa [lawful] using hlawful) value rfl
    | get key => exact Store.turn_get key
    | refresh key ttl => exact Store.turn_refresh key rfl
    | delete key => exact Store.turn_delete key
    | scan root => exact Store.turn_scan root
    | sweep => exact Store.turn_sweep
    | setAvailable available => exact .switch (.refl _) available
  | record i ttl => exact Store.turn_putRecord i rfl
  | register i => exact Client.turn_register i
  | unregister i =>
    show Store.Turn _ _ _ (o.member.unregister o.store o.now i).2.1
    rw [store_unregister]
    exact Client.turn_unregister i
  | watch node tag => cases hlawful
  | destroy => cases hlawful
  | search hq hseeks => exact hseeks.turn
  | sweep hjob => exact Store.turn_sweep
  | round hr =>
    refine Round.turn_step (ho.rounds _ (List.mem_of_getElem? hr)) ?_
    rw [term?, hr]
    rfl
  | _ => exact .refl _

end Outpost

/-! ### Watches that run -/

/-- Whether every watch that runs is for the cache, and knows of what becomes of its record. -/
def Attentive (s : Store) (tasks : TaskSet Job) : Prop :=
  ∀ id w, tasks.phase? id = some (.running (.watch w)) → w.listener = .cache ∧ w.Aware s

/-- Whether a watch of the node runs that has not called its listener. -/
def Guarded (tasks : TaskSet Job) (called : List TaskId) (node : String) : Prop :=
  ∃ id w, tasks.phase? id = some (.running (.watch w)) ∧ w.node = node ∧ id ∉ called

/-- Whether no watch of the node runs that has called its listener. -/
def Unspent (tasks : TaskSet Job) (called : List TaskId) (node : String) : Prop :=
  ∀ id w, tasks.phase? id = some (.running (.watch w)) → w.node = node → id ∉ called

section Changes
variable {s t : Store} {tasks : TaskSet Job} {called : List TaskId} {id : TaskId} {job job' : Job}
  {node key : String}

theorem Attentive.mono (h : Attentive s tasks) {news : List Event} (hst : s.Announces t news) :
    Attentive t tasks := by
  intro id w hw
  obtain ⟨hlistener, haware⟩ := h id w hw
  exact ⟨hlistener, haware.mono hst⟩

/-! A task is started. -/

theorem Attentive.spawn (h : Attentive s tasks) (key : String)
    (hjob : ∀ w, job = .watch w → w.listener = .cache ∧ w.Aware s) :
    Attentive s (tasks.spawnIfAbsent key job).2 := by
  intro id w hw
  rcases TaskSet.phase?_spawn hw with hold | ⟨-, hnew⟩
  · exact h id w hold
  · exact hjob w (Phase.running.inj hnew).symm

theorem Guarded.spawn (h : Guarded tasks called node) (key : String) (job : Job) :
    Guarded (tasks.spawnIfAbsent key job).2 called node := by
  obtain ⟨id, w, hw, hnode, hid⟩ := h
  exact ⟨id, w, TaskSet.phase?_spawn_of_some hw key job, hnode, hid⟩

theorem Unspent.spawn (h : Unspent tasks called node)
    (hstarted : ∀ id ∈ called, id < tasks.tasks.length) (key : String) (job : Job) :
    Unspent (tasks.spawnIfAbsent key job).2 called node := by
  intro id w hw hnode
  rcases TaskSet.phase?_spawn hw with hold | ⟨rfl, -⟩
  · exact h id w hold hnode
  · exact fun hid => Nat.lt_irrefl _ (hstarted _ hid)

/-- If none of the watches of the node has called its listener, one is there that has not after a
watch of the node was to be started. -/
theorem Unspent.guarded_spawn {c : Client} (horderly : c.Orderly)
    (h : Unspent c.tasks called node)
    (hstarted : ∀ id ∈ called, id < c.tasks.tasks.length) {w : Watch} (hnode : w.node = node) :
    Guarded (c.tasks.spawnIfAbsent (Client.watchTask w.node) (.watch w)).2 called node := by
  cases hruns : c.tasks.isRunning (Client.watchTask w.node) with
  | true =>
    obtain ⟨id, v, hv, hsame⟩ := horderly.watch_of_isRunning hruns
    have hold : Guarded c.tasks called node :=
      ⟨id, v, hv, hsame.trans hnode, h id v hv (hsame.trans hnode)⟩
    exact hold.spawn _ _
  | false =>
    rcases TaskSet.spawn_runs c.tasks (Client.watchTask w.node) (.watch w) with
      ⟨id, job, hheld, hphase⟩ | hphase
    · have hfind := horderly.tasks.tidy.sorted.find?_of_mem hheld
      have hruns' : c.tasks.isRunning (Client.watchTask w.node) = true := by
        rw [TaskSet.isRunning, hfind]
        exact TaskSet.runs_of_phase? hphase
      rw [hruns] at hruns'
      cases hruns'
    · exact ⟨_, w, hphase, hnode, fun hid => Nat.lt_irrefl _ (hstarted _ hid)⟩

/-! A task goes on. -/

theorem Attentive.update (h : Attentive s tasks) (hphase : tasks.phase? id = some (.running job))
    (hjob : ∀ w, job' = .watch w → w.listener = .cache ∧ w.Aware s) :
    Attentive s (tasks.update id job') := by
  intro other w hw
  rcases TaskSet.phase?_update hphase hw with hold | ⟨-, hnew⟩
  · exact h other w hold
  · exact hjob w (Phase.running.inj hnew).symm

/-- What a task watches. -/
def Job.node? : Job → Option String
  | .watch w => some w.node
  | _ => none

theorem Guarded.update (h : Guarded tasks called node)
    (hphase : tasks.phase? id = some (.running job)) (hsame : job'.node? = job.node?) :
    Guarded (tasks.update id job') called node := by
  obtain ⟨other, w, hw, hnode, hother⟩ := h
  rw [TaskSet.update_of_phase? hphase]
  by_cases heq : other = id
  · subst heq
    obtain rfl := Phase.running.inj (Option.some.inj (hphase.symm.trans hw))
    cases job' with
    | watch v =>
      exact ⟨other, v, TaskSet.phase?_setPhase_self (TaskSet.lt_of_phase? hphase) _,
        (Option.some.inj hsame).trans hnode, hother⟩
    | sweeper period next => cases hsame
    | heartbeat period next ttl => cases hsame
  · exact ⟨other, w, (TaskSet.phase?_setPhase_of_ne heq _).trans hw, hnode, hother⟩

theorem Unspent.update (h : Unspent tasks called node)
    (hphase : tasks.phase? id = some (.running job)) (hsame : job'.node? = job.node?) :
    Unspent (tasks.update id job') called node := by
  intro other w hw hnode
  rcases TaskSet.phase?_update hphase hw with hold | ⟨rfl, hnew⟩
  · exact h other w hold hnode
  · obtain rfl := Phase.running.inj hnew
    cases job with
    | watch v => exact h other v hphase ((Option.some.inj hsame).symm.trans hnode)
    | sweeper period next => cases hsame
    | heartbeat period next ttl => cases hsame

/-! A task comes to its end. -/

theorem Attentive.finish (h : Attentive s tasks) (hphase : tasks.phase? id = some (.running job)) :
    Attentive s (tasks.finish id) :=
  fun other w hw => h other w (TaskSet.phase?_finish hphase hw)

theorem Guarded.finish (h : Guarded tasks called node)
    (hphase : tasks.phase? id = some (.running job)) (hover : id ∈ called ∨ job.node? = none) :
    Guarded (tasks.finish id) called node := by
  obtain ⟨other, w, hw, hnode, hother⟩ := h
  rw [TaskSet.finish_of_phase? hphase]
  have hne : other ≠ id := by
    rintro rfl
    obtain rfl := Phase.running.inj (Option.some.inj (hphase.symm.trans hw))
    rcases hover with hcalled | hnone
    · exact hother hcalled
    · cases hnone
  exact ⟨other, w, (TaskSet.phase?_setPhase_of_ne hne _).trans hw, hnode, hother⟩

theorem Unspent.finish (h : Unspent tasks called node)
    (hphase : tasks.phase? id = some (.running job)) : Unspent (tasks.finish id) called node :=
  fun other w hw => h other w (TaskSet.phase?_finish hphase hw)

/-! Whether a watch has called is forgotten once it has come to its end. -/

theorem Guarded.erase (h : Guarded tasks called node) (id : TaskId) :
    Guarded tasks (called.erase id) node := by
  obtain ⟨other, w, hw, hnode, hother⟩ := h
  exact ⟨other, w, hw, hnode, fun hmem => hother (List.mem_of_mem_erase hmem)⟩

theorem Unspent.erase (h : Unspent tasks called node) (id : TaskId) :
    Unspent tasks (called.erase id) node :=
  fun other w hw hnode hmem => h other w hw hnode (List.mem_of_mem_erase hmem)

/-! A watch of another node calls its listener. -/

theorem Guarded.call (h : Guarded tasks called node) {v : Watch}
    (hphase : tasks.phase? id = some (.running (.watch v))) (hother : v.node ≠ node) :
    Guarded tasks (id :: called) node := by
  obtain ⟨other, w, hw, hnode, hnew⟩ := h
  refine ⟨other, w, hw, hnode, fun hmem => ?_⟩
  rcases List.mem_cons.1 hmem with rfl | hold
  · obtain rfl := Job.watch.inj (Phase.running.inj (Option.some.inj (hphase.symm.trans hw)))
    exact hother hnode
  · exact hnew hold

theorem Unspent.call (h : Unspent tasks called node) {v : Watch}
    (hphase : tasks.phase? id = some (.running (.watch v))) (hother : v.node ≠ node) :
    Unspent tasks (id :: called) node := by
  intro other w hw hnode hmem
  rcases List.mem_cons.1 hmem with rfl | hold
  · obtain rfl := Job.watch.inj (Phase.running.inj (Option.some.inj (hphase.symm.trans hw)))
    exact hother hnode
  · exact h other w hw hnode hold

end Changes

/-! ### What is always so of the watches -/

/-- How far a discovery may be with the watch of a node. -/
def WatchCall.Fits (s : Store) (node : String) : WatchCall → Prop
  | vacant named listener => named = node ∧ listener = .cache
  | listening w => w.node = node ∧ w.listener = .cache ∧ w.heard ≤ s.events.length
  | found w => w.node = node ∧ w.listener = .cache ∧ w.Aware s
  | asked _ _ | done _ => False

/-- Whether the watch that a discovery asks for is that of the first node it has to watch. -/
def Search.Fits (s : Store) : Search → Prop
  | ⟨_, none⟩ => True
  | ⟨.watching _ _ _ (i :: _), some call⟩ => call.Fits s i.nodeKey
  | ⟨_, some _⟩ => False

theorem WatchCall.Fits.mono {s t : Store} {node : String} {call : WatchCall}
    (h : call.Fits s node) {news : List Event} (hst : s.Announces t news) : call.Fits t node := by
  cases call with
  | asked named listener => exact h
  | vacant named listener => exact h
  | listening w =>
    obtain ⟨hnode, hlistener, hheard⟩ := h
    refine ⟨hnode, hlistener, ?_⟩
    rw [hst.events, List.length_append]
    exact Nat.le_add_right_of_le hheard
  | found w => exact ⟨h.1, h.2.1, h.2.2.mono hst⟩
  | done r => exact h

theorem Search.Fits.mono {s t : Store} {q : Search} (h : q.Fits s) {news : List Event}
    (hst : s.Announces t news) : q.Fits t := by
  unfold Search.Fits at h ⊢
  split at h
  · trivial
  · exact h.mono hst
  · exact h

namespace Outpost
variable {o p : Outpost} {a : Action}

/-- What is always so of the watches of a client that watches for its cache alone. -/
structure Attended (o : Outpost) : Prop where
  orderly : o.member.client.Orderly
  started : ∀ id ∈ o.called, id < o.tasks.tasks.length
  attentive : Attentive o.store o.tasks
  fits : ∀ q ∈ o.searches, q.Fits o.store

/-- What a discovery goes on with fits as well. -/
theorem Seeks.fits {q q' : Search} (h : Seeks o q q' p) (hq : q.Fits o.store) :
    q'.Fits p.store := by
  cases h with
  | @vacant service node generation found left i call listener hcall hruns =>
    cases call with
    | none =>
      obtain ⟨rfl, rfl⟩ := WatchCall.asked.inj hcall
      exact ⟨rfl, rfl⟩
    | some call =>
      obtain rfl : call = .asked node listener := hcall
      exact hq.elim
  | listen => exact ⟨hq.1, hq.2, Nat.le_refl _⟩
  | there hget =>
    obtain ⟨hnode, hlistener, hheard⟩ := hq
    obtain ⟨rfl, hholds⟩ := Store.get_some hget
    exact ⟨hnode, hlistener, hheard, .inl hholds⟩
  | answered q => exact hq.elim
  | _ => trivial

/-- What an action makes of the tasks of a client that watches for its cache alone, of those that
have called their listener, and of the cache. -/
inductive Shift (o p : Outpost) : Prop where
  | same (htasks : p.tasks = o.tasks) (hcalled : p.called = o.called)
      (hcache : o.member.cache.Forgets p.member.cache)
  /-- A discovery hands in its list. -/
  | keep {service : String} {generation : Nat} {found : List Instance} {call : Option WatchCall}
      (hsearch : ⟨.watching service generation found [], call⟩ ∈ o.searches)
      (htasks : p.tasks = o.tasks) (hcalled : p.called = o.called)
      (hcache : p.member.cache = (Lookup.keep o.member service generation found).cache)
  | start (job : Job)
      (haware : ∀ w, job = .watch w → w.listener = .cache ∧ w.Aware o.store)
      (htasks : p.tasks = (o.tasks.spawnIfAbsent job.key job).2) (hcalled : p.called = o.called)
      (hcache : p.member.cache = o.member.cache)
  | goOn {id : TaskId} {job job' : Job} (hphase : o.tasks.phase? id = some (.running job))
      (hsame : job'.node? = job.node?)
      (haware : ∀ w, job' = .watch w → w.listener = .cache ∧ w.Aware o.store)
      (htasks : p.tasks = o.tasks.update id job') (hcalled : p.called = o.called)
      (hcache : p.member.cache = o.member.cache)
  | stop {id : TaskId} {job : Job} (hphase : o.tasks.phase? id = some (.running job))
      (hother : job.node? = none) (htasks : p.tasks = o.tasks.finish id)
      (hcalled : p.called = o.called) (hcache : p.member.cache = o.member.cache)
  /-- A watch calls its listener, and the service of its node is forgotten. -/
  | call {id : TaskId} {w : Watch} (hphase : o.tasks.phase? id = some (.running (.watch w)))
      (htasks : p.tasks = o.tasks) (hcalled : p.called = id :: o.called)
      (hcache : p.member.cache = (o.member.cache.invalidateNode w.node).2)
  | conclude {id : TaskId} {job : Job} (hphase : o.tasks.phase? id = some (.running job))
      (hover : id ∈ o.called) (htasks : p.tasks = o.tasks.finish id)
      (hcalled : p.called = o.called.erase id) (hcache : p.member.cache = o.member.cache)

theorem cache_notify (c : CachedClient) {w : Watch} (h : w.listener = .cache) :
    (c.notify w.notice).cache = (c.cache.invalidateNode w.node).2 := by
  rw [CachedClient.notify, Watch.notice, h]

theorem shift_search {q q' : Search} (hq : q ∈ o.searches) (hfits : q.Fits o.store)
    (h : Seeks o q q' p) (searches : List Search) : Shift o { p with searches := searches } := by
  cases h with
  | gone hget =>
    refine .same (congrArg Client.tasks (client_notify o.member (some _))) rfl ?_
    show Cache.Forgets _ (CachedClient.notify _ _).cache
    rw [cache_notify _ hfits.2.1]
    exact Cache.forgets_invalidateNode _ _
  | @spawn service generation found left i w =>
    obtain ⟨hnode, hlistener, haware⟩ := hfits
    refine .start (.watch w) (fun v hv => ?_) rfl rfl rfl
    obtain rfl := Job.watch.inj hv
    exact ⟨hlistener, haware⟩
  | keep => exact .keep hq (congrArg Client.tasks (client_keep ..)) rfl rfl
  | _ => exact .same rfl rfl (Cache.Forgets.refl _)

theorem Course.shift (h : Course o a p) (hlawful : lawful a = true) (ho : o.Attended) :
    Shift o p := by
  cases h with
  | init config =>
    exact .start (.sweeper (o.member.client.config.getD config).sweepInterval.toNat o.now)
      (fun w hw => by cases hw) rfl rfl rfl
  | register i => exact .same (Client.tasks_register i) rfl (Cache.Forgets.refl _)
  | unregister i =>
    refine .same ?_ rfl ?_
    · show ((o.member.unregister o.store o.now i).2.2).client.tasks = _
      rw [client_unregister]
      rfl
    · show Cache.Forgets _ (o.member.unregister o.store o.now i).2.2.cache
      unfold CachedClient.unregister
      split
      · exact Cache.forgets_invalidate _ _
      · exact Cache.Forgets.refl _
  | heartBeat =>
    cases hconfig : o.member.client.config with
    | none =>
      refine .same ?_ rfl (Cache.Forgets.refl _)
      exact congrArg Client.tasks (Client.heartBeat_of_none hconfig)
    | some config =>
      refine .start (.heartbeat config.heartbeatInterval.toNat o.now config.ttl.toNat)
        (fun w hw => by cases hw) ?_ rfl rfl
      exact congrArg Client.tasks (Client.heartBeat_of_some hconfig)
  | watch node tag => cases hlawful
  | destroy => cases hlawful
  | clearCache => exact .same rfl rfl (Cache.forgets_clear _)
  | search hq hseeks =>
    have hmem := List.mem_of_getElem? hq
    exact shift_search hmem (ho.fits _ hmem) hseeks _
  | @stop id job hjob hzero =>
    refine .stop (phase?_of_job? hjob) ?_ rfl rfl rfl
    cases job with
    | watch w => cases hzero
    | _ => rfl
  | @sweep id period next hjob =>
    have hplain : (Job.sweeper period (next + period)).node? = none := rfl
    exact .goOn (phase?_of_job? hjob) hplain (fun w hw => by cases hw) rfl rfl rfl
  | @beat id period next ttl hjob hdue hidle =>
    have hplain : (Job.heartbeat period (next + period) ttl).node? = none := rfl
    exact .goOn (phase?_of_job? hjob) hplain (fun w hw => by cases hw) rfl rfl rfl
  | @listen id count w v hjob hnew hnext =>
    obtain ⟨hlistener, haware⟩ := ho.attentive _ _ (phase?_of_job? hjob)
    obtain ⟨hv, hnode, hsame⟩ := haware.listenAll hnext
    have hwatch : (Job.watch v).node? = (Job.watch w).node? := congrArg some hnode
    refine .goOn (phase?_of_job? hjob) hwatch (fun u hu => ?_) rfl rfl rfl
    obtain rfl := Job.watch.inj hu
    exact ⟨hsame.trans hlistener, hv⟩
  | @call id count w hjob hnew =>
    have hlistener := (ho.attentive _ _ (phase?_of_job? hjob)).1
    exact .call (phase?_of_job? hjob) (congrArg Client.tasks (client_notify o.member (some _))) rfl
      (cache_notify _ hlistener)
  | conclude hjob hcalled =>
    exact .conclude (phase?_of_job? hjob) hcalled rfl rfl rfl
  | _ => exact .same rfl rfl (Cache.Forgets.refl _)

theorem Shift.attentive (h : Shift o p) (ho : Attentive o.store o.tasks) :
    Attentive o.store p.tasks := by
  cases h with
  | same htasks hcalled hcache => rwa [htasks]
  | keep hsearch htasks hcalled hcache => rwa [htasks]
  | start job haware htasks hcalled hcache => exact htasks ▸ ho.spawn _ haware
  | goOn hphase hsame haware htasks hcalled hcache => exact htasks ▸ ho.update hphase haware
  | stop hphase hother htasks hcalled hcache => exact htasks ▸ ho.finish hphase
  | call hphase htasks hcalled hcache => rwa [htasks]
  | conclude hphase hover htasks hcalled hcache => exact htasks ▸ ho.finish hphase

theorem Shift.started (h : Shift o p) (ho : ∀ id ∈ o.called, id < o.tasks.tasks.length) :
    ∀ id ∈ p.called, id < p.tasks.tasks.length := by
  cases h with
  | same htasks hcalled hcache => rwa [htasks, hcalled]
  | keep hsearch htasks hcalled hcache => rwa [htasks, hcalled]
  | start job haware htasks hcalled hcache =>
    rw [htasks, hcalled]
    exact fun id hid => Nat.lt_of_lt_of_le (ho id hid) (TaskSet.length_spawn _ _ _)
  | goOn hphase hsame haware htasks hcalled hcache =>
    rwa [htasks, hcalled, TaskSet.update_eq_change, TaskSet.length_change]
  | stop hphase hother htasks hcalled hcache =>
    rwa [htasks, hcalled, TaskSet.finish_eq_change, TaskSet.length_change]
  | call hphase htasks hcalled hcache =>
    rw [htasks, hcalled]
    intro id hid
    rcases List.mem_cons.1 hid with rfl | hid
    · exact TaskSet.lt_of_phase? hphase
    · exact ho id hid
  | conclude hphase hover htasks hcalled hcache =>
    rw [htasks, hcalled, TaskSet.finish_eq_change, TaskSet.length_change]
    exact fun id hid => ho id (List.mem_of_mem_erase hid)

theorem Course.fits (h : Course o a p) {news : List Event} (hnews : o.store.Announces p.store news)
    (ho : ∀ q ∈ o.searches, q.Fits o.store) : ∀ q ∈ p.searches, q.Fits p.store := by
  have hold : ∀ q ∈ o.searches, q.Fits p.store := fun q hq => (ho q hq).mono hnews
  cases h with
  | discover service =>
    intro q hq
    rcases List.mem_append.1 hq with hq | hq
    · exact hold q hq
    · obtain rfl := List.mem_singleton.1 hq
      trivial
  | search hq hseeks =>
    intro q'' hq''
    rcases List.mem_or_eq_of_mem_set hq'' with hq'' | rfl
    · exact hold q'' hq''
    · exact hseeks.fits (ho _ (List.mem_of_getElem? hq))
  | _ => exact hold

/-- **Every action leaves the watches attended.** -/
theorem Course.attended (h : Course o a p) (hlawful : lawful a = true) (ho : o.Attended)
    (hkeyed : o.Keyed) : p.Attended := by
  have hshift := h.shift hlawful ho
  obtain ⟨news, hnews⟩ := (h.turn hlawful hkeyed).announces
  exact ⟨h.orderly ho.orderly, hshift.started ho.started,
    (hshift.attentive ho.attentive).mono hnews, h.fits hnews ho.fits⟩

end Outpost
end RemoteCall.Registry
