import RemoteCall.Proofs.Registry.Moves
import RemoteCall.Registry.Outpost

/-! What a client does, step by step.

If nothing comes between its steps, a discovery does what it does in one go (`seekFor_alone`), and
so do a watch and a turn of the heartbeat (`conclude_hear`, `tick_heartbeat`). All else that is
proved of `Outpost` rests on three inversions: what a step of a discovery can do (`Seeks`), what
an action can do (`Course`), and what of it concerns the client's instances, its settings and its
renewals (`Settles`, `Renews`). -/
namespace RemoteCall.Registry
namespace Outpost
variable {o : Outpost} {id : TaskId}

/-! ### Nothing in between -/

/-- A discovery takes so many steps. -/
def seekFor (o : Outpost) (q : Search) : (steps : Nat) → Search × Outpost
  | 0 => (q, o)
  | steps + 1 => seekFor (o.seek q).2 (o.seek q).1 steps

theorem seekFor_add (o : Outpost) (q : Search) (first second : Nat) :
    o.seekFor q (first + second) = (o.seekFor q first).2.seekFor (o.seekFor q first).1 second := by
  induction first generalizing o q with
  | zero => rw [Nat.zero_add, seekFor]
  | succ first ih => rw [Nat.succ_add, seekFor, ih, seekFor]

theorem phase?_of_job? {job : Job} (h : o.job? id = some job) :
    o.tasks.phase? id = some (.running job) := by
  unfold job? at h
  split at h
  · next job' hphase =>
    obtain rfl := Option.some.inj h
    exact hphase
  · cases h

/-- To ask for a watch takes up to four steps. -/
theorem seekFor_watch (o : Outpost) (service : String) (generation : Nat) (found : List Instance)
    (i : Instance) (left : List Instance) :
    ∃ steps, o.seekFor ⟨.watching service generation found (i :: left), none⟩ steps =
      match o.member.watch o.store o.now i.nodeKey .cache with
      | (.ok (), s, c) => (⟨.watching service generation found left, none⟩, o.withMember s c)
      | (.error e, s, c) => (⟨.done (.error e), none⟩, o.withMember s c) := by
  by_cases hruns : o.member.client.tasks.isRunning (Client.watchTask i.nodeKey) = true
  · refine ⟨1, ?_⟩
    simp [seekFor, seek, WatchCall.step, sentry, hruns, CachedClient.watch, Client.watch, after,
      CachedClient.notify?]
  · rcases hget : o.store.get o.now (recordKey i.nodeKey) with ⟨e | text | text, s⟩
    · refine ⟨3, ?_⟩
      simp [seekFor, seek, WatchCall.step, sentry, hruns, hget, CachedClient.watch, Client.watch,
        after, withMember]
    · refine ⟨3, ?_⟩
      simp [seekFor, seek, WatchCall.step, sentry, hruns, hget, CachedClient.watch, Client.watch,
        after, withMember, Sentry.tell?, CachedClient.notify?]
    · refine ⟨4, ?_⟩
      simp [seekFor, seek, WatchCall.step, sentry, hruns, hget, CachedClient.watch, Client.watch,
        after, withMember, CachedClient.notify?]

/-- All that is left is watched, and the list is handed in. -/
theorem seekFor_finish (o : Outpost) (service : String) (generation : Nat) (found left : List Instance) :
    ∃ steps, o.seekFor ⟨.watching service generation found left, none⟩ steps =
      let (r, s, c) := Lookup.finish o.member o.store o.now service generation found left
      (⟨.done r, none⟩, o.withMember s c) := by
  induction left generalizing o with
  | nil => exact ⟨1, rfl⟩
  | cons i left ih =>
    obtain ⟨first, hfirst⟩ := seekFor_watch o service generation found i left
    rw [Lookup.finish]
    rcases hwatch : o.member.watch o.store o.now i.nodeKey .cache with ⟨e | ⟨⟩, s, c⟩
    · rw [hwatch] at hfirst
      exact ⟨first, hfirst⟩
    · rw [hwatch] at hfirst
      obtain ⟨others, hothers⟩ := ih (o.withMember s c)
      refine ⟨first + others, ?_⟩
      rw [seekFor_add, hfirst]
      exact hothers

/-- **A discovery that nothing comes between is done in one go.** -/
theorem seekFor_alone (o : Outpost) (service : String) :
    ∃ steps, o.seekFor ⟨.start service, none⟩ steps =
      let (r, s, c) := o.member.discover o.store o.now service
      (⟨.done r, none⟩, o.withMember s c) := by
  have hstart : (o.seek ⟨.start service, none⟩) =
      (⟨(Lookup.start service).look o.member, none⟩, o) := rfl
  rw [CachedClient.discover, Lookup.run]
  cases hread : o.member.cache.read service with
  | some instances =>
    refine ⟨1, ?_⟩
    simp [seekFor, hstart, Lookup.look, hread, withMember]
  | none =>
    have hlook : (Lookup.start service).look o.member = .missed service := by
      simp [Lookup.look, hread]
    have hasking : o.seekFor ⟨.start service, none⟩ 2 =
        (⟨.asking service (o.member.cache.generation service), none⟩, o) := by
      rw [seekFor, hstart, hlook]
      rfl
    rcases hfound : Client.discover o.store o.now service with ⟨e | found, s⟩
    · refine ⟨2 + 1, ?_⟩
      rw [seekFor_add, hasking]
      simp [seekFor, seek, Lookup.step, hfound]
    · obtain ⟨others, hothers⟩ := seekFor_finish (o.withMember s o.member) service
        (o.member.cache.generation service) found found
      refine ⟨2 + (1 + others), ?_⟩
      rw [seekFor_add, hasking, seekFor_add]
      have hask : o.seekFor ⟨.asking service (o.member.cache.generation service), none⟩ 1 =
          (⟨.watching service (o.member.cache.generation service) found found, none⟩,
            o.withMember s o.member) := by
        simp [seekFor, seek, Lookup.step, hfound]
      rw [hask]
      exact hothers

/-- A watch that calls its listener and then comes to its end at once. -/
theorem conclude_hear {w : Watch} {count : Nat} (hjob : o.job? id = some (.watch w))
    (hnew : id ∉ o.called) (hover : w.listenAll o.store.events count = .fire) :
    (o.hear id count).conclude id =
      let (notice, client) := o.member.client.hear o.store id count (.watch w)
      { o with member := { o.member with client := client }.notify? notice } := by
  have hhear : o.hear id count =
      { o with member := o.member.notify w.notice, called := id :: o.called } := by
    rw [hear, hjob]
    simp only [if_neg hnew, hover]
  have hclient : (o.member.notify w.notice).client = o.member.client :=
    client_notify o.member (some w.notice)
  have hjob' : (o.hear id count).job? id = some (.watch w) := by
    rw [hhear, job?, tasks, hclient]
    exact hjob
  rw [conclude, hjob', hhear]
  simp only [List.mem_cons, true_or, if_true, List.erase_cons_head, withTasks, tasks, hclient]
  rw [Client.hear, hover, Client.goOn]
  show _ = { o with member := CachedClient.notify _ w.notice }
  cases hlistener : w.listener <;> simp [CachedClient.notify, Watch.notice, hlistener]

/-- A turn of a heartbeat that comes before the next one is due, and of which nothing comes
between. -/
theorem tick_heartbeat {period next ttl : Nat} (hjob : o.job? id = some (.heartbeat period next ttl))
    (hidle : o.busy id = false) (hdue : next ≤ o.now) (hontime : o.now < next + period) :
    let (s, client) := o.member.client.runDue o.store o.now id (.heartbeat period next ttl)
    let r : Round := { beat := some ⟨id, next⟩, ttl := ttl, left := o.member.client.own }
    o.tick id = { o with
      member := { o.member with client := client }
      rounds := o.rounds ++ [r] } ∧
      ∃ steps, (r.run o.store o.now steps).2 = s ∧ (r.run o.store o.now steps).1.left = [] := by
  have hperiod : period ≠ 0 := by omega
  have hnext : Client.nextDue period next o.now = next + period := by
    rw [Client.nextDue, Nat.div_eq_of_lt (by omega), Nat.zero_add, Nat.one_mul]
  obtain ⟨steps, hsteps⟩ :=
    Round.run_alone (some ⟨id, next⟩) ttl o.member.client.own 0 o.store o.now
  simp only [Client.runDue, if_neg (Nat.not_lt.2 hdue), if_neg hperiod, hnext]
  refine ⟨?_, steps, by rw [hsteps], by rw [hsteps]⟩
  simp [tick, hjob, hidle, Nat.not_lt.2 hdue, hperiod, withTasks, tasks]

/-! ### Steps of a discovery -/

/-- All that a step of a discovery can do. -/
inductive Seeks (o : Outpost) : Search → Search → Outpost → Prop where
  | start {service : String} {call : Option WatchCall} :
      Seeks o ⟨.start service, call⟩ ⟨(Lookup.start service).look o.member, none⟩ o
  | missed {service : String} {call : Option WatchCall} :
      Seeks o ⟨.missed service, call⟩ ⟨.asking service (o.member.cache.generation service), none⟩ o
  | found {service : String} {generation : Nat} {call : Option WatchCall}
      {found : List Instance} {s : Store}
      (h : Client.discover o.store o.now service = (.ok found, s)) :
      Seeks o ⟨.asking service generation, call⟩ ⟨.watching service generation found found, none⟩
        (o.withMember s o.member)
  | failed {service : String} {generation : Nat} {call : Option WatchCall} {e : RegistryError}
      {s : Store} (h : Client.discover o.store o.now service = (.error e, s)) :
      Seeks o ⟨.asking service generation, call⟩ ⟨.done (.error e), none⟩ (o.withMember s o.member)
  /-- A watch of the node runs. -/
  | running {service node : String} {generation : Nat} {found left : List Instance} {i : Instance}
      {call : Option WatchCall} {listener : Listener}
      (hcall : call.getD (.asked i.nodeKey .cache) = .asked node listener)
      (h : o.tasks.isRunning (Client.watchTask node) = true) :
      Seeks o ⟨.watching service generation found (i :: left), call⟩
        ⟨.watching service generation found left, none⟩ o
  | vacant {service node : String} {generation : Nat} {found left : List Instance} {i : Instance}
      {call : Option WatchCall} {listener : Listener}
      (hcall : call.getD (.asked i.nodeKey .cache) = .asked node listener)
      (h : o.tasks.isRunning (Client.watchTask node) = false) :
      Seeks o ⟨.watching service generation found (i :: left), call⟩
        ⟨.watching service generation found (i :: left), some (.vacant node listener)⟩ o
  | listen {service node : String} {generation : Nat} {found left : List Instance} {i : Instance}
      {listener : Listener} :
      Seeks o ⟨.watching service generation found (i :: left), some (.vacant node listener)⟩
        ⟨.watching service generation found (i :: left),
          some (.listening ⟨node, listener, o.store.events.length⟩)⟩ o
  | refused {service : String} {generation : Nat} {found left : List Instance} {i : Instance}
      {w : Watch} {e : RegistryError} {s : Store}
      (h : o.store.get o.now (recordKey w.node) = (.error e, s)) :
      Seeks o ⟨.watching service generation found (i :: left), some (.listening w)⟩
        ⟨.done (.error e), none⟩ (o.withMember s o.member)
  /-- The record is gone, and the listener is called. -/
  | gone {service : String} {generation : Nat} {found left : List Instance} {i : Instance}
      {w : Watch} {s : Store} (h : o.store.get o.now (recordKey w.node) = (.ok none, s)) :
      Seeks o ⟨.watching service generation found (i :: left), some (.listening w)⟩
        ⟨.watching service generation found left, none⟩ (o.withMember s (o.member.notify w.notice))
  | there {service text : String} {generation : Nat} {found left : List Instance} {i : Instance}
      {w : Watch} {s : Store} (h : o.store.get o.now (recordKey w.node) = (.ok (some text), s)) :
      Seeks o ⟨.watching service generation found (i :: left), some (.listening w)⟩
        ⟨.watching service generation found (i :: left), some (.found w)⟩ (o.withMember s o.member)
  /-- The watch is started unless one runs by now. -/
  | spawn {service : String} {generation : Nat} {found left : List Instance} {i : Instance}
      {w : Watch} :
      Seeks o ⟨.watching service generation found (i :: left), some (.found w)⟩
        ⟨.watching service generation found left, none⟩
        (o.withTasks (o.tasks.spawnIfAbsent (Client.watchTask w.node) (.watch w)).2)
  | answered {service : String} {generation : Nat} {found left : List Instance} {i : Instance}
      {r : Except RegistryError Unit} (q : Search) :
      Seeks o ⟨.watching service generation found (i :: left), some (.done r)⟩ q o
  | keep {service : String} {generation : Nat} {found : List Instance} {call : Option WatchCall} :
      Seeks o ⟨.watching service generation found [], call⟩ ⟨.done (.ok found), none⟩
        (o.withMember o.store (Lookup.keep o.member service generation found))
  | done {result : Except RegistryError (List Instance)} {call : Option WatchCall} :
      Seeks o ⟨.done result, call⟩ ⟨.done result, none⟩ o

/-! What comes of a step in asking for a watch. -/

theorem after_sentry (o : Outpost) : o.after o.sentry = o := rfl

theorem after_store (o : Outpost) (s : Store) :
    o.after { o.sentry with store := s } = o.withMember s o.member := rfl

theorem after_tell (o : Outpost) (s : Store) (notice : Notice) :
    o.after ({ o.sentry with store := s }.tell? (some notice)) =
      o.withMember s (o.member.notify notice) := rfl

/-- A discovery looks whether a watch of the node runs. -/
theorem seeks_asked (o : Outpost) (service : String) (generation : Nat) (found : List Instance)
    (i : Instance) (left : List Instance) (call : Option WatchCall) {node : String}
    {listener : Listener} (hcall : call.getD (.asked i.nodeKey .cache) = .asked node listener) :
    let q : Search := ⟨.watching service generation found (i :: left), call⟩
    Seeks o q (o.seek q).1 (o.seek q).2 := by
  intro q
  cases hruns : o.tasks.isRunning (Client.watchTask node) with
  | true =>
    have hstep : WatchCall.step o.sentry (.asked node listener) = (.done (.ok ()), o.sentry) :=
      if_pos hruns
    simpa [q, seek, hcall, hstep, after_sentry] using Seeks.running hcall hruns
  | false =>
    have hstep : WatchCall.step o.sentry (.asked node listener) =
        (.vacant node listener, o.sentry) := if_neg (Bool.eq_false_iff.1 hruns)
    simpa [q, seek, hcall, hstep, after_sentry] using Seeks.vacant hcall hruns

theorem seeks_seek (o : Outpost) (q : Search) : Seeks o q (o.seek q).1 (o.seek q).2 := by
  obtain ⟨lookup, call⟩ := q
  cases lookup with
  | start service => exact .start
  | missed service => exact .missed
  | done result => exact .done
  | asking service generation =>
    rcases hfound : Client.discover o.store o.now service with ⟨e | found, s⟩
    · simpa [seek, Lookup.step, hfound] using Seeks.failed hfound
    · simpa [seek, Lookup.step, hfound] using Seeks.found hfound
  | watching service generation found left =>
    cases left with
    | nil => exact .keep
    | cons i left =>
      cases call with
      | none => exact seeks_asked o service generation found i left none rfl
      | some call =>
        cases call with
        | asked node listener => exact seeks_asked o service generation found i left _ rfl
        | vacant node listener => exact .listen
        | found w => exact .spawn
        | done r => cases r <;> exact .answered _
        | listening w =>
          rcases hget : o.store.get o.now (recordKey w.node) with ⟨e | text | text, s⟩
          · have hcall := WatchCall.step_listening_error (x := o.sentry) hget
            simpa [seek, hcall, after_store] using Seeks.refused hget
          · have hcall := WatchCall.step_listening_none (x := o.sentry) hget
            simpa [seek, hcall, after_tell] using Seeks.gone hget
          · have hcall := WatchCall.step_listening_some (x := o.sentry) hget
            simpa [seek, hcall, after_store] using Seeks.there hget

section Seeks
variable {q q' : Search} {p : Outpost}

/-- A discovery does nothing to the store but ask for something. -/
theorem Seeks.store (h : Seeks o q q' p) :
    p.store = o.store ∨ (∃ service, p.store = (Client.discover o.store o.now service).2) ∨
      ∃ key, p.store = (o.store.get o.now key).2 := by
  cases h with
  | found h => exact .inr (.inl ⟨_, (congrArg Prod.snd h).symm⟩)
  | failed h => exact .inr (.inl ⟨_, (congrArg Prod.snd h).symm⟩)
  | refused h => exact .inr (.inr ⟨_, (congrArg Prod.snd h).symm⟩)
  | gone h => exact .inr (.inr ⟨_, (congrArg Prod.snd h).symm⟩)
  | there h => exact .inr (.inr ⟨_, (congrArg Prod.snd h).symm⟩)
  | _ => exact .inl rfl

theorem Seeks.turn {term : Option Nat} (h : Seeks o q q' p) :
    Store.Turn o.now term o.store p.store := by
  rcases h.store with hsame | ⟨service, hasked⟩ | ⟨key, hasked⟩
  · rw [hsame]
    exact .refl _
  · rw [hasked]
    exact Client.turn_discover service
  · rw [hasked]
    exact Store.turn_get key

theorem Seeks.spares {kept : String → Prop} (h : Seeks o q q' p) :
    Store.Spares o.now kept o.store p.store := by
  rcases h.store with hsame | ⟨service, hasked⟩ | ⟨key, hasked⟩
  · rw [hsame]
    exact .refl _
  · rw [hasked]
    exact Client.spares_discover service
  · rw [hasked]
    exact Store.spares_get key

/-- A discovery leaves the client as it is but for its lists, or the client starts a watch. -/
theorem Seeks.client (h : Seeks o q q' p) :
    p.member.client = o.member.client ∨ ∃ w : Watch, p.member.client = { o.member.client with
      tasks := (o.member.client.tasks.spawnIfAbsent (Client.watchTask w.node) (.watch w)).2 } := by
  cases h with
  | gone h => exact .inl (client_notify o.member (some _))
  | keep => exact .inl (client_keep ..)
  | spawn => exact .inr ⟨_, rfl⟩
  | _ => exact .inl rfl

/-- The rest is not touched by a discovery. -/
theorem Seeks.beside (h : Seeks o q q' p) :
    p = { o with store := p.store, member := p.member } := by
  cases h <;> rfl

end Seeks

end Outpost

/-! ### Order -/

namespace Client
variable {c : Client} {id : TaskId} {job job' : Job}

/-- A task that runs is the one under the key of its kind. -/
theorem Orderly.idOf_key (h : c.Orderly) (hphase : c.tasks.phase? id = some (.running job)) :
    c.tasks.at? job.key = some job ∧ c.tasks.idOf job.key = id := by
  have hstate : c.tasks.state? id = some job := by
    rw [TaskSet.state?, hphase]
    rfl
  obtain ⟨key, hkey⟩ := h.tasks.tidy.kept id job hstate
  have hjob : c.tasks.at? key = some job := (TaskSet.at?_of_find? hkey).trans hstate
  obtain rfl := h.tasks.keyed key job hjob
  exact ⟨hjob, by rw [TaskSet.idOf, hkey]; rfl⟩

theorem Orderly.update_id (h : c.Orderly) (hphase : c.tasks.phase? id = some (.running job))
    (hkey : job'.key = job.key) : Orderly { c with tasks := c.tasks.update id job' } := by
  obtain ⟨hjob, hid⟩ := h.idOf_key hphase
  have hupdate := h.update hjob hkey
  rwa [hid] at hupdate

theorem Orderly.finish_id (h : c.Orderly) (hphase : c.tasks.phase? id = some (.running job)) :
    Orderly { c with tasks := c.tasks.finish id } := by
  obtain ⟨hjob, hid⟩ := h.idOf_key hphase
  have hfinish := h.finish hjob
  rwa [hid] at hfinish

/-- A watch of a node runs if one runs under its key. -/
theorem Orderly.watch_of_isRunning (h : c.Orderly) {node : String}
    (hruns : c.tasks.isRunning (watchTask node) = true) :
    ∃ id w, c.tasks.phase? id = some (.running (.watch w)) ∧ w.node = node := by
  rw [TaskSet.isRunning_eq_isSome] at hruns
  obtain ⟨job, hjob⟩ := Option.isSome_iff_exists.1 hruns
  have hkey := h.tasks.keyed _ _ hjob
  have hphase := TaskSet.phase?_of_state? ((TaskSet.state?_idOf _ _).trans hjob)
  cases job with
  | watch w => exact ⟨_, w, hphase, (watchTask_inj hkey).symm⟩
  | sweeper period next => exact absurd hkey (watchTask_ne_sweeperTask node)
  | heartbeat period next ttl => exact absurd hkey (watchTask_ne_heartbeatTask node)

/-- A watch that runs does so under the key of its node. -/
theorem Orderly.isRunning_of_watch (h : c.Orderly) {w : Watch}
    (hphase : c.tasks.phase? id = some (.running (.watch w))) :
    c.tasks.isRunning (watchTask w.node) = true := by
  rw [TaskSet.isRunning_eq_isSome]
  exact Option.isSome_of_eq_some (h.idOf_key hphase).1

end Client

/-! ### All that can happen -/

/-- How long it is from one turn of a task to the next. -/
def Job.period? : Job → Option Nat
  | .sweeper period _ => some period
  | .heartbeat period _ _ => some period
  | .watch _ => none

namespace Outpost
variable {o p : Outpost} {a : Action}

/-- Whether an action is something that the client may not come to. -/
def Action.beside : Action → Bool
  | .search _ | .tick _ | .hear _ _ | .conclude _ | .renew => true
  | _ => false

/-- What can become of a client by an action. -/
inductive Course (o : Outpost) : Action → Outpost → Prop where
  /-- There is nothing to go on with. -/
  | still {a : Action} (h : a.beside = true) : Course o a o
  | elapse (ms : Nat) : Course o (.elapse ms) { o with now := o.now + ms }
  | store (op : Store.Op) : Course o (.store op) { o with store := (o.store.apply o.now op).2 }
  | record (i : Instance) (ttl : Nat) : Course o (.record i ttl) { o with
      store := (o.store.put o.now (recordKey i.nodeKey) (Client.recordOf i) ttl).2 }
  | init (config : RegistryConfig) :
      Course o (.init config) { o with member := o.member.init o.now config }
  | register (i : Instance) : Course o (.register i)
      (o.withMember (o.member.register o.store o.now i).2.1 (o.member.register o.store o.now i).2.2)
  | unregister (i : Instance) : Course o (.unregister i) (o.withMember
      (o.member.unregister o.store o.now i).2.1 (o.member.unregister o.store o.now i).2.2)
  | heartBeat : Course o .heartBeat { o with member := (o.member.heartBeat o.now).2 }
  | watch (node tag : String) : Course o (.watch node tag)
      (o.withMember (o.member.watch o.store o.now node (.outside tag)).2.1
        (o.member.watch o.store o.now node (.outside tag)).2.2)
  | clearCache :
      Course o .clearCache { o with member := { o.member with cache := o.member.cache.clear } }
  | destroy : Course o .destroy
      (o.withMember (o.member.destroy o.store o.now).1 (o.member.destroy o.store o.now).2)
  | renew {config : RegistryConfig} (hconfig : o.member.client.config = some config) :
      Course o .renew { o with
        rounds := o.rounds ++ [{ ttl := config.ttl.toNat, left := o.member.client.own }] }
  | discover (service : String) : Course o (.discover service) { o with
      searches := o.searches ++ [⟨.start service, none⟩] }
  | search {n : Nat} {q q' : Search} {p : Outpost} (hq : o.searches[n]? = some q)
      (hseeks : Seeks o q q' p) :
      Course o (.search n) { p with searches := o.searches.set n q' }
  /-- A task with a period of zero comes to its end. -/
  | stop {id : TaskId} {job : Job} (hjob : o.job? id = some job)
      (hzero : job.period? = some 0) :
      Course o (.tick id) (o.withTasks (o.tasks.finish id))
  | sweep {id : TaskId} {period next : Nat} (hjob : o.job? id = some (.sweeper period next)) :
      Course o (.tick id)
        { o.withTasks (o.tasks.update id (.sweeper period (next + period))) with
          store := (o.store.sweep o.now).2 }
  | beat {id : TaskId} {period next ttl : Nat} (hjob : o.job? id = some (.heartbeat period next ttl))
      (hdue : next ≤ o.now) (hidle : o.busy id = false) :
      Course o (.tick id)
        { o.withTasks (o.tasks.update id (.heartbeat period (next + period) ttl)) with
          rounds := o.rounds ++
            [{ beat := some ⟨id, next⟩, ttl := ttl, left := o.member.client.own }] }
  | beyond {n : Nat} (hr : o.rounds[n]? = none) : Course o (.round n) o
  | round {n : Nat} {r : Round} (hr : o.rounds[n]? = some r) : Course o (.round n) { o with
      store := (r.step o.store o.now).2
      rounds := o.rounds.set n (r.step o.store o.now).1 }
  | listen {id : TaskId} {count : Nat} {w v : Watch} (hjob : o.job? id = some (.watch w))
      (hnew : id ∉ o.called) (hnext : w.listenAll o.store.events count = .listen v) :
      Course o (.hear id count) (o.withTasks (o.tasks.update id (.watch v)))
  | call {id : TaskId} {count : Nat} {w : Watch} (hjob : o.job? id = some (.watch w))
      (hnew : id ∉ o.called) : Course o (.hear id count)
      { o with member := o.member.notify w.notice, called := id :: o.called }
  | conclude {id : TaskId} {w : Watch} (hjob : o.job? id = some (.watch w))
      (hcalled : id ∈ o.called) : Course o (.conclude id)
      { o.withTasks (o.tasks.finish id) with called := o.called.erase id }

theorem course_tick (o : Outpost) (id : TaskId) : Course o (.tick id) (o.tick id) := by
  unfold tick
  split
  · next period next hjob =>
    split
    · exact .still rfl
    · split
      · next hzero => exact .stop hjob (congrArg some hzero)
      · exact .sweep hjob
  · next period next ttl hjob =>
    split
    · exact .still rfl
    · next hdue =>
      obtain ⟨hdue, hidle⟩ : next ≤ o.now ∧ o.busy id = false := by simpa using hdue
      split
      · next hzero => exact .stop hjob (congrArg some hzero)
      · exact .beat hjob hdue hidle
  · exact .still rfl

theorem course_hear (o : Outpost) (id : TaskId) (count : Nat) :
    Course o (.hear id count) (o.hear id count) := by
  unfold hear
  split
  · next w hjob =>
    split
    · exact .still rfl
    · next hnew =>
      split
      · exact .still rfl
      · next v hnext => exact .listen hjob hnew hnext
      · exact .call hjob hnew
  · exact .still rfl

theorem course_conclude (o : Outpost) (id : TaskId) :
    Course o (.conclude id) (o.conclude id) := by
  unfold conclude
  split
  · next w hjob =>
    split
    · next hcalled => exact .conclude hjob hcalled
    · exact .still rfl
  · exact .still rfl

theorem course_renew (o : Outpost) : Course o .renew o.renew := by
  unfold renew
  split
  · next config hconfig => exact .renew hconfig
  · exact .still rfl

theorem course_round (o : Outpost) (n : Nat) : Course o (.round n) (o.round n) := by
  unfold round
  split
  · next r hr => exact .round hr
  · next hr => exact .beyond hr

theorem course_search (o : Outpost) (n : Nat) : Course o (.search n) (o.search n) := by
  unfold search
  split
  · next q hq => exact .search hq (seeks_seek o q)
  · exact .still rfl

/-- **What an action does is one of these.** -/
theorem course (o : Outpost) (a : Action) : Course o a (o.step a) := by
  cases a with
  | elapse ms => exact .elapse ms
  | store op => exact .store op
  | record i ttl => exact .record i ttl
  | init config => exact .init config
  | register i => exact .register i
  | unregister i => exact .unregister i
  | heartBeat => exact .heartBeat
  | watch node tag => exact .watch node tag
  | clearCache => exact .clearCache
  | destroy => exact .destroy
  | renew => exact course_renew o
  | discover service => exact .discover service
  | search n => exact course_search o n
  | tick id => exact course_tick o id
  | round n => exact course_round o n
  | hear id count => exact course_hear o id count
  | conclude id => exact course_conclude o id

/-! ### What the client has

A discovery, a watch and a task have no part in what the client has registered. -/

theorem Seeks.own {q q' : Search} (h : Seeks o q q' p) :
    p.member.client.own = o.member.client.own := by
  rcases h.client with hsame | ⟨w, hspawn⟩
  · rw [hsame]
  · rw [hspawn]

theorem Seeks.config {q q' : Search} (h : Seeks o q q' p) :
    p.member.client.config = o.member.client.config := by
  rcases h.client with hsame | ⟨w, hspawn⟩
  · rw [hsame]
  · rw [hspawn]

/-- What can become of the client's instances and of its settings. -/
inductive Settles (o : Outpost) : Action → Outpost → Prop where
  | same {a : Action} {p : Outpost} (hown : p.member.client.own = o.member.client.own)
      (hconfig : p.member.client.config = o.member.client.config) : Settles o a p
  | init {config : RegistryConfig} {p : Outpost}
      (hown : p.member.client.own = o.member.client.own)
      (hconfig : p.member.client.config = some (o.member.client.config.getD config)) :
      Settles o (.init config) p
  | register {i : Instance} {p : Outpost}
      (hclient : p.member.client = (o.member.client.register o.store o.now i).2.2) :
      Settles o (.register i) p
  | unregister {i : Instance} {p : Outpost}
      (hown : p.member.client.own = o.member.client.own.erase i.nodeKey)
      (hconfig : p.member.client.config = o.member.client.config) :
      Settles o (.unregister i) p
  | destroy {p : Outpost} (hown : p.member.client.own = [])
      (hconfig : p.member.client.config = o.member.client.config) : Settles o .destroy p

theorem Course.settles (h : Course o a p) : Settles o a p := by
  cases h with
  | init config => exact .init rfl rfl
  | register i => exact .register rfl
  | unregister i =>
    have hclient := client_unregister o.member o.store o.now i
    exact .unregister (congrArg Client.own hclient :) (congrArg Client.config hclient :)
  | destroy => exact .destroy rfl rfl
  | heartBeat =>
    cases hconfig : o.member.client.config with
    | none =>
      have hclient : (o.member.client.heartBeat o.now).2 = _ := Client.heartBeat_of_none hconfig
      exact .same (congrArg Client.own hclient :) (congrArg Client.config hclient :)
    | some config =>
      have hclient : (o.member.client.heartBeat o.now).2 = _ := Client.heartBeat_of_some hconfig
      exact .same (congrArg Client.own hclient :) (congrArg Client.config hclient :)
  | watch node tag =>
    have hclient := client_watch o.member o.store o.now node (.outside tag)
    obtain ⟨t, ⟨-, -, hwatch⟩ | ⟨e, hwatch⟩ | hwatch | ⟨-, -, hwatch⟩⟩ :=
      Client.watch_cases o.member.client o.store o.now node (.outside tag)
    all_goals
      rw [hwatch] at hclient
      exact .same (congrArg Client.own hclient :) (congrArg Client.config hclient :)
  | search hq hseeks => exact .same hseeks.own hseeks.config
  | @call id count w hjob hnew =>
    have hclient := client_notify o.member (some w.notice)
    exact .same (congrArg Client.own hclient :) (congrArg Client.config hclient :)
  | _ => exact .same rfl rfl

theorem Course.config (h : Course o a p) {config : RegistryConfig}
    (hconfig : o.member.client.config = some config) : p.member.client.config = some config := by
  cases h.settles with
  | same hown hsame => exact hsame.trans hconfig
  | init hown hset => rw [hset, hconfig, Option.getD_some]
  | register hclient =>
    rw [hclient]
    unfold Client.register
    split
    · exact hconfig
    · split <;> exact hconfig
  | unregister hown hsame => exact hsame.trans hconfig
  | destroy hown hsame => exact hsame.trans hconfig

/-- What can become of the renewals under way. -/
inductive Renews (o : Outpost) : Action → Outpost → Prop where
  | same {a : Action} {p : Outpost} (hrounds : p.rounds = o.rounds) : Renews o a p
  | asked {config : RegistryConfig} {p : Outpost} (hconfig : o.member.client.config = some config)
      (hrounds : p.rounds =
        o.rounds ++ [{ ttl := config.ttl.toNat, left := o.member.client.own }]) :
      Renews o .renew p
  | turn {id : TaskId} {period next ttl : Nat} {p : Outpost}
      (hjob : o.job? id = some (.heartbeat period next ttl))
      (hrounds : p.rounds =
        o.rounds ++ [{ beat := some ⟨id, next⟩, ttl := ttl, left := o.member.client.own }]) :
      Renews o (.tick id) p
  | goesOn {n : Nat} {r : Round} {p : Outpost} (hr : o.rounds[n]? = some r)
      (hrounds : p.rounds = o.rounds.set n (r.step o.store o.now).1) : Renews o (.round n) p

theorem Course.renews (h : Course o a p) : Renews o a p := by
  cases h with
  | renew hconfig => exact .asked hconfig rfl
  | beat hjob hdue hidle => exact .turn hjob rfl
  | round hr => exact .goesOn hr rfl
  | search hq hseeks =>
    refine .same ?_
    rw [hseeks.beside]
  | _ => exact .same rfl

/-! ### What every action keeps -/

/-- Time passes by itself. -/
theorem Course.time (h : Course o a p) :
    p.now = o.now ∨ ∃ ms, a = .elapse ms ∧ p = { o with now := o.now + ms } := by
  cases h with
  | elapse ms => exact .inr ⟨ms, rfl, rfl⟩
  | search hq hseeks =>
    rw [hseeks.beside]
    exact .inl rfl
  | _ => exact .inl rfl

theorem Course.now (h : Course o a p) : o.now ≤ p.now := by
  rcases h.time with hsame | ⟨ms, -, rfl⟩
  · exact Nat.le_of_eq hsame.symm
  · exact Nat.le_add_right _ _

/-- **The client's instances and its tasks stay in order.** -/
theorem Course.orderly (h : Course o a p) (ho : o.member.client.Orderly) :
    p.member.client.Orderly := by
  cases h with
  | init config => exact ho.init config
  | register i => exact ho.register i
  | unregister i =>
    show ((o.member.unregister o.store o.now i).2.2).client.Orderly
    rw [client_unregister]
    exact ho.unregister i
  | heartBeat => exact ho.heartBeat
  | watch node tag =>
    show ((o.member.watch o.store o.now node (.outside tag)).2.2).client.Orderly
    rw [client_watch]
    exact ho.watch node _
  | destroy => exact ho.destroy o.store o.now
  | search hq hseeks =>
    rcases hseeks.client with hsame | ⟨w, hspawn⟩
    · show Client.Orderly _
      rwa [hsame]
    · show Client.Orderly _
      rw [hspawn]
      exact ho.spawn _ (.watch w)
  | stop hjob hzero => exact ho.finish_id (phase?_of_job? hjob)
  | sweep hjob => exact ho.update_id (phase?_of_job? hjob) rfl
  | beat hjob hdue hidle => exact ho.update_id (phase?_of_job? hjob) rfl
  | listen hjob hnew hnext =>
    exact ho.update_id (phase?_of_job? hjob)
      (congrArg Client.watchTask (Watch.target_of_listenAll hnext).1)
  | call hjob hnew =>
    show (o.member.notify? (some _)).client.Orderly
    rw [client_notify]
    exact ho
  | conclude hjob hcalled => exact ho.finish_id (phase?_of_job? hjob)
  | _ => exact ho

end Outpost
end RemoteCall.Registry
