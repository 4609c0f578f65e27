import RemoteCall.Proofs.Registry.Outposts
import RemoteCall.Proofs.Registry.Rounds

/-! Who writes a record.

At a node that a client uses alone, only two things write the record: a registration there, and a
renewal that comes to the node (`Touch`). Both let it live for the time that the client's settings
say, for heartbeats and renewals keep to them (`Regular`). So the record ends no later than a lease
after it was written last (`Dated`). -/
namespace RemoteCall.Registry
namespace Outpost
variable {o p : Outpost} {a : Action} {node : String} {i : Instance} {id : TaskId}

/-- What can be seen of the record of a node. -/
def record? (o : Outpost) (node : String) : Option Entry := o.store.live? o.now (recordKey node)

/-- The instance that the client has at a node. -/
def own? (o : Outpost) (node : String) : Option Instance := o.member.client.own.find? node

def config? (o : Outpost) : Option RegistryConfig := o.member.client.config

/-- Whether by an action nobody else does anything to the record of a node. -/
def Action.usesAlone (node : String) : Action → Bool
  | .store (.put key _ _) | .store (.refresh key _) | .store (.delete key) => recordKey node ≠ key
  | .record i _ => node ≠ i.nodeKey
  | _ => true

/-- Whether by an action the client gives up a node, be it that the store refuses to go along. -/
def Action.givesUp (node : String) : Action → Bool
  | .unregister i => node = i.nodeKey
  | .destroy => true
  | _ => false

/-- The instance that the client registers at a node by an action that does not fail. -/
def registered? (node : String) (o : Outpost) : Action → Option Instance
  | .register i =>
    if node = i.nodeKey ∧ (o.member.register o.store o.now i).1.isOk = true then some i else none
  | _ => none

/-- Whether an action is a step of a renewal that is about a node. -/
def visits (node : String) (o : Outpost) : Action → Bool
  | .round n => o.rounds[n]?.any fun r => r.isAt node
  | _ => false

/-! ### Registrations -/

theorem of_registered? {j : Instance} (h : o.registered? node (.register i) = some j) :
    j = i ∧ node = i.nodeKey ∧ ∃ config, o.config? = some config ∧ o.store.available = true := by
  rw [registered?] at h
  split at h
  · next hboth =>
    obtain ⟨hnode, hok⟩ := hboth
    replace hok : (o.member.client.register o.store o.now i).1.isOk = true := hok
    rw [Client.isOk_register, Bool.and_eq_true] at hok
    obtain ⟨config, hconfig⟩ := Option.isSome_iff_exists.1 hok.1
    exact ⟨(Option.some.inj h).symm, hnode, config, hconfig, hok.2⟩
  · cases h

/-- A registration that is refused changes nothing. -/
theorem register_of_refused (hnode : node = i.nodeKey)
    (h : o.registered? node (.register i) = none) :
    (o.member.register o.store o.now i).2 = (o.store, o.member) := by
  have hrefused : ¬(o.member.client.register o.store o.now i).1.isOk = true := by
    intro hok
    rw [registered?, if_pos ⟨hnode, hok⟩] at h
    cases h
  rw [Client.isOk_register, Bool.and_eq_true, not_and_or, Bool.not_eq_true, Bool.not_eq_true,
    Option.isSome_eq_false_iff, Option.isNone_iff_eq_none] at hrefused
  have hsame : (o.member.client.register o.store o.now i).2 = _ :=
    Client.register_of_refused hrefused i
  show ((o.member.client.register o.store o.now i).2.1,
    { o.member with client := (o.member.client.register o.store o.now i).2.2 }) = _
  rw [hsame]

theorem register_of_registered {config : RegistryConfig} (hconfig : o.config? = some config)
    (honline : o.store.available = true) (i : Instance) :
    (o.member.register o.store o.now i).2 =
      ({ o.store with
          entries := o.store.entries.insert (recordKey i.nodeKey)
            ⟨Client.recordOf i, o.now + config.ttl.toNat⟩ },
        { o.member with
          client := { o.member.client with own := o.member.client.own.insert i.nodeKey i } }) := by
  have hregister : o.member.client.register o.store o.now i = _ :=
    Client.register_of_online hconfig honline i
  show ((o.member.client.register o.store o.now i).2.1,
    { o.member with client := (o.member.client.register o.store o.now i).2.2 }) = _
  rw [hregister, Store.put, Store.online_of_available honline]

/-- A client that registers nothing at a node has there what it had, or it gives up the node. -/
theorem Course.own? (h : Course o a p) (hold : o.registered? node a = none) :
    p.own? node = o.own? node ∨ a.givesUp node = true ∧ p.own? node = none := by
  cases h.settles with
  | same hown hconfig => exact .inl (congrArg (Dict.find? node) hown)
  | init hown hconfig => exact .inl (congrArg (Dict.find? node) hown)
  | destroy hown hconfig => exact .inr ⟨rfl, congrArg (Dict.find? node) hown⟩
  | @unregister i p hown hconfig =>
    by_cases hnode : node = i.nodeKey
    · refine .inr ⟨decide_eq_true hnode, ?_⟩
      rw [Outpost.own?, hown, hnode, Dict.find?_erase_self]
    · refine .inl ?_
      rw [Outpost.own?, hown, Dict.find?_erase_of_ne hnode]
      rfl
  | @register i p hclient =>
    refine .inl ?_
    rw [Outpost.own?, hclient]
    by_cases hnode : node = i.nodeKey
    · have hrefused := register_of_refused hnode hold
      have hmember : (o.member.register o.store o.now i).2.2.client = o.member.client := by
        rw [hrefused]
      exact congrArg (fun client => client.own.find? node) hmember
    · unfold Client.register
      split
      · rfl
      · split
        · exact Dict.find?_insert_of_ne hnode _ _
        · rfl

/-! ### What becomes of a record -/

/-- Whether nothing was done to a record but to drop what could not be seen of it any more. -/
structure Rests (node : String) (o p : Outpost) : Prop where
  live : p.store.live? o.now (recordKey node) = o.record? node
  entry : p.store.entries.find? (recordKey node) = o.store.entries.find? (recordKey node) ∨
    p.store.entries.find? (recordKey node) = none

theorem Rests.of_spares (h : Store.Spares o.now (· = recordKey node) o.store p.store) :
    Rests node o p where
  live := h.live _ rfl
  entry := h.entry _ rfl

/-- All that can be done to a record that the client alone uses. -/
inductive Touch (node : String) (o : Outpost) : Action → Outpost → Prop where
  | rest {a : Action} {p : Outpost} (hother : o.visits node a = false) (h : Rests node o p) :
      Touch node o a p
  | registered {i : Instance} {config : RegistryConfig} {p : Outpost}
      (hnew : o.registered? node (.register i) = some i) (hconfig : o.config? = some config)
      (hstore : p.store = { o.store with
        entries := o.store.entries.insert (recordKey node)
          ⟨Client.recordOf i, o.now + config.ttl.toNat⟩ }) :
      Touch node o (.register i) p
  | givenUp {a : Action} {p : Outpost} (h : a.givesUp node = true)
      (hentry : p.store.entries.find? (recordKey node) = o.store.entries.find? (recordKey node) ∨
        p.store.entries.find? (recordKey node) = none) :
      Touch node o a p
  /-- A renewal comes to the node. -/
  | visited {n : Nat} {r : Round} (hr : o.rounds[n]? = some r) (hat : r.isAt node = true) :
      Touch node o (.round n) { o with
        store := (r.step o.store o.now).2
        rounds := o.rounds.set n (r.step o.store o.now).1 }

theorem touch_store (op : Store.Op) (halone : (Action.store op).usesAlone node = true) :
    Rests node o { o with store := (o.store.apply o.now op).2 } := by
  have hkey {key : String} (h : recordKey node ≠ key) : ¬key = recordKey node := fun heq => h heq.symm
  cases op with
  | put key value ttl => exact .of_spares (Store.spares_put (hkey (of_decide_eq_true halone)))
  | refresh key ttl => exact .of_spares (Store.spares_refresh (hkey (of_decide_eq_true halone)))
  | delete key => exact .of_spares (Store.spares_delete (hkey (of_decide_eq_true halone)))
  | get key => exact .of_spares (Store.spares_get key)
  | scan root => exact .of_spares (Store.spares_scan root)
  | sweep => exact .of_spares Store.spares_sweep
  | setAvailable available => exact ⟨rfl, .inl rfl⟩

theorem touch_register (o : Outpost) (node : String) (i : Instance) :
    Touch node o (.register i) (o.withMember (o.member.register o.store o.now i).2.1
      (o.member.register o.store o.now i).2.2) := by
  by_cases hnode : node = i.nodeKey
  · cases hnew : o.registered? node (.register i) with
    | none =>
      rw [register_of_refused hnode hnew]
      exact .rest rfl (.of_spares (.refl _))
    | some j =>
      obtain ⟨rfl, -, config, hconfig, honline⟩ := of_registered? hnew
      refine .registered hnew hconfig ?_
      rw [register_of_registered hconfig honline, hnode]
      rfl
  · have hspares : Store.Spares o.now (· = recordKey node) o.store
        (o.member.client.register o.store o.now i).2.1 :=
      Client.spares_register fun h => hnode (recordKey_inj.1 h).symm
    exact .rest rfl (.of_spares hspares)

theorem touch_unregister (o : Outpost) (node : String) (i : Instance) :
    Touch node o (.unregister i) (o.withMember (o.member.unregister o.store o.now i).2.1
      (o.member.unregister o.store o.now i).2.2) := by
  have hstore := store_unregister o.member o.store o.now i
  by_cases hnode : node = i.nodeKey
  · refine .givenUp (decide_eq_true hnode) ?_
    show (o.member.unregister o.store o.now i).2.1.entries.find? (recordKey node) = _ ∨ _
    rw [hstore]
    exact Store.find?_delete _ _ _ _
  · have hspares : Store.Spares o.now (· = recordKey node) o.store
        (o.member.unregister o.store o.now i).2.1 := by
      rw [hstore]
      exact Client.spares_unregister fun h => hnode (recordKey_inj.1 h).symm
    exact .rest rfl (.of_spares hspares)

/-- **What an action does to a record is one of these.** -/
theorem Course.touch (h : Course o a p) (halone : a.usesAlone node = true) : Touch node o a p := by
  cases h with
  | store op => exact .rest rfl (touch_store op halone)
  | record i ttl =>
    have hkey : ¬recordKey i.nodeKey = recordKey node :=
      fun heq => of_decide_eq_true halone (recordKey_inj.1 heq).symm
    exact .rest rfl (.of_spares (Store.spares_put hkey))
  | register i => exact touch_register o node i
  | unregister i => exact touch_unregister o node i
  | watch watched tag =>
    have hspares : Store.Spares o.now (· = recordKey node) o.store
        (o.member.watch o.store o.now watched (.outside tag)).2.1 := by
      rw [store_watch]
      exact Client.spares_watch _ _
    exact .rest rfl (.of_spares hspares)
  | destroy => exact .givenUp rfl (Client.find?_takenBack _ _ _ _)
  | search hq hseeks =>
    have hspares : Store.Spares o.now (· = recordKey node) o.store _ := hseeks.spares
    exact .rest rfl ⟨hspares.live _ rfl, hspares.entry _ rfl⟩
  | sweep hjob => exact .rest rfl (.of_spares Store.spares_sweep)
  | @round n r hr =>
    cases hat : r.isAt node with
    | true => exact .visited hr hat
    | false =>
      have hspares := (r.goes_step o.store o.now).spares hat
      exact .rest (by rw [visits, hr, Option.any_some, hat]) (.of_spares hspares)
  | @still a hbeside =>
    have hother : o.visits node a = false := by
      cases a with
      | round n => cases hbeside
      | _ => rfl
    exact .rest hother (.of_spares (.refl _))
  | beyond hr => exact .rest (by rw [visits, hr, Option.any_none]) (.of_spares (.refl _))
  | _ => exact .rest rfl (.of_spares (.refl _))

/-! ### Heartbeats -/

theorem job?_eq_some {job : Job} :
    o.job? id = some job ↔ o.tasks.phase? id = some (.running job) := by
  refine ⟨phase?_of_job?, fun h => ?_⟩
  rw [job?, h]

/-- What an action makes of the tasks, as to heartbeats. -/
inductive Alters (o : Outpost) : Action → Outpost → Prop where
  | same {a : Action} {p : Outpost} (htasks : p.tasks = o.tasks) : Alters o a p
  | start {a : Action} {p : Outpost} (job : Job)
      (hnew : ∀ period next ttl, job = .heartbeat period next ttl →
        next = o.now ∧ ∃ config, o.config? = some config ∧ config.ttl.toNat = ttl)
      (htasks : p.tasks = (o.tasks.spawnIfAbsent job.key job).2) : Alters o a p
  /-- A task that is no heartbeat goes on. -/
  | goOn {a : Action} {p : Outpost} {id : TaskId} {job job' : Job} (hjob : o.job? id = some job)
      (hplain : job.key ≠ Client.heartbeatTask) (hkey : job'.key = job.key)
      (htasks : p.tasks = o.tasks.update id job') : Alters o a p
  | beat {id : TaskId} {period next ttl : Nat} {p : Outpost}
      (hjob : o.job? id = some (.heartbeat period next ttl)) (hdue : next ≤ o.now)
      (hidle : o.busy id = false)
      (htasks : p.tasks = o.tasks.update id (.heartbeat period (next + period) ttl))
      (hrounds : p.rounds =
        o.rounds ++ [{ beat := some ⟨id, next⟩, ttl := ttl, left := o.member.client.own }]) :
      Alters o (.tick id) p
  | stop {a : Action} {p : Outpost} {id : TaskId} {job : Job} (hjob : o.job? id = some job)
      (hover : job.period? = some 0 ∨ job.period? = none)
      (htasks : p.tasks = o.tasks.finish id) : Alters o a p
  | abort {p : Outpost} (htasks : p.tasks = o.tasks.abortAll) : Alters o .destroy p

theorem Course.alters (h : Course o a p) : Alters o a p := by
  cases h with
  | init config =>
    exact .start (.sweeper (o.member.client.config.getD config).sweepInterval.toNat o.now)
      (fun _ _ _ h => by cases h) rfl
  | register i => exact .same (Client.tasks_register i)
  | unregister i =>
    have hclient := client_unregister o.member o.store o.now i
    exact .same (congrArg Client.tasks hclient :)
  | heartBeat =>
    cases hconfig : o.member.client.config with
    | none =>
      have hclient : (o.member.client.heartBeat o.now).2 = _ := Client.heartBeat_of_none hconfig
      exact .same (congrArg Client.tasks hclient :)
    | some config =>
      have hclient : (o.member.client.heartBeat o.now).2 = _ := Client.heartBeat_of_some hconfig
      refine .start (.heartbeat config.heartbeatInterval.toNat o.now config.ttl.toNat)
        (fun period next ttl h => ?_) (congrArg Client.tasks hclient :)
      obtain ⟨-, rfl, rfl⟩ := Job.heartbeat.inj h
      exact ⟨rfl, config, hconfig, rfl⟩
  | watch node tag =>
    have hclient := client_watch o.member o.store o.now node (.outside tag)
    obtain ⟨t, ⟨-, -, hwatch⟩ | ⟨e, hwatch⟩ | hwatch | ⟨-, -, hwatch⟩⟩ :=
      Client.watch_cases o.member.client o.store o.now node (.outside tag)
    all_goals rw [hwatch] at hclient
    · exact .same (congrArg Client.tasks hclient :)
    · exact .same (congrArg Client.tasks hclient :)
    · exact .same (congrArg Client.tasks hclient :)
    · exact .start (.watch ⟨node, .outside tag, o.store.events.length⟩)
        (fun _ _ _ h => by cases h) (congrArg Client.tasks hclient :)
  | destroy => exact .abort rfl
  | search hq hseeks =>
    rcases hseeks.client with hsame | ⟨w, hspawn⟩
    · exact .same (congrArg Client.tasks hsame :)
    · exact .start (.watch w) (fun _ _ _ h => by cases h) (congrArg Client.tasks hspawn :)
  | stop hjob hzero => exact .stop hjob (.inl hzero) rfl
  | @sweep id period next hjob =>
    have hkey : (Job.sweeper period (next + period)).key = (Job.sweeper period next).key := rfl
    exact .goOn hjob Client.sweeperTask_ne_heartbeatTask hkey rfl
  | beat hjob hdue hidle => exact .beat hjob hdue hidle rfl rfl
  | @listen id count w v hjob hnew hnext =>
    have hkey : (Job.watch v).key = (Job.watch w).key :=
      congrArg Client.watchTask (Watch.target_of_listenAll hnext).1
    exact .goOn hjob (Client.watchTask_ne_heartbeatTask _) hkey rfl
  | @call id count w hjob hnew =>
    have hclient := client_notify o.member (some w.notice)
    exact .same (congrArg Client.tasks hclient :)
  | conclude hjob hcalled => exact .stop hjob (.inr rfl) rfl
  | _ => exact .same rfl

/-- Where a heartbeat comes from. -/
theorem Course.beats (h : Course o a p) (ho : o.member.client.Orderly) {period next ttl : Nat}
    (hjob : p.job? id = some (.heartbeat period next ttl)) :
    o.job? id = some (.heartbeat period next ttl) ∨
      (next = o.now ∧ ∃ config, o.config? = some config ∧ config.ttl.toNat = ttl) ∨
      ∃ due, o.job? id = some (.heartbeat period due ttl) ∧ due ≤ o.now ∧ next = due + period := by
  have hphase := phase?_of_job? hjob
  cases h.alters with
  | same htasks => exact .inl (job?_eq_some.2 (htasks ▸ hphase))
  | start job hnew htasks =>
    rcases TaskSet.phase?_spawn (htasks ▸ hphase) with hold | ⟨-, hstarted⟩
    · exact .inl (job?_eq_some.2 hold)
    · exact .inr (.inl (hnew _ _ _ (Phase.running.inj hstarted).symm))
  | goOn hbefore hplain hkey htasks =>
    rcases TaskSet.phase?_update (phase?_of_job? hbefore) (htasks ▸ hphase) with hold | ⟨-, hnew⟩
    · exact .inl (job?_eq_some.2 hold)
    · rw [← Phase.running.inj hnew] at hkey
      exact absurd hkey.symm hplain
  | beat hbefore hdue hidle htasks hrounds =>
    rcases TaskSet.phase?_update (phase?_of_job? hbefore) (htasks ▸ hphase) with hold | ⟨rfl, hnew⟩
    · exact .inl (job?_eq_some.2 hold)
    · obtain ⟨rfl, rfl, rfl⟩ := Job.heartbeat.inj (Phase.running.inj hnew)
      exact .inr (.inr ⟨_, hbefore, hdue, rfl⟩)
  | stop hbefore hover htasks =>
    exact .inl (job?_eq_some.2 (TaskSet.phase?_finish (phase?_of_job? hbefore) (htasks ▸ hphase)))
  | abort htasks =>
    have hkept := (h.orderly ho).idOf_key hphase
    have hnone : p.member.client.tasks.at? (Job.heartbeat period next ttl).key = none := by
      show p.tasks.at? _ = none
      rw [htasks]
      exact ho.tasks.tidy.at?_abortAll _
    rw [hnone] at hkept
    cases hkept.1

/-- A heartbeat with a period goes on until the client is destroyed. -/
theorem Course.beat_goes_on (h : Course o a p) {period next ttl : Nat}
    (hjob : o.job? id = some (.heartbeat period next ttl)) (hperiod : 0 < period)
    (hstays : a ≠ .destroy) :
    p.job? id = some (.heartbeat period next ttl) ∨
      a = .tick id ∧ next ≤ o.now ∧ o.busy id = false ∧
        p.job? id = some (.heartbeat period (next + period) ttl) ∧
        p.rounds =
          o.rounds ++ [{ beat := some ⟨id, next⟩, ttl := ttl, left := o.member.client.own }] := by
  have hphase := phase?_of_job? hjob
  have hsame {other : TaskId} {job : Job} (hbefore : o.job? other = some job) (heq : id = other) :
      job = .heartbeat period next ttl :=
    Option.some.inj (hbefore.symm.trans (heq ▸ hjob))
  cases h.alters with
  | same htasks => exact .inl (job?_eq_some.2 (htasks ▸ hphase))
  | start job hnew htasks =>
    exact .inl (job?_eq_some.2 (htasks ▸ TaskSet.phase?_spawn_of_some hphase _ _))
  | @goOn a p other job job' hbefore hplain hkey htasks =>
    have hne : id ≠ other := fun heq => hplain (congrArg Job.key (hsame hbefore heq))
    refine .inl (job?_eq_some.2 ?_)
    rw [htasks, TaskSet.update_of_phase? (phase?_of_job? hbefore), TaskSet.phase?_setPhase_of_ne hne]
    exact hphase
  | @beat other period' next' ttl' p hbefore hdue hidle htasks hrounds =>
    by_cases heq : id = other
    · subst heq
      obtain ⟨rfl, rfl, rfl⟩ := Job.heartbeat.inj (hsame hbefore rfl)
      refine .inr ⟨rfl, hdue, hidle, job?_eq_some.2 ?_, hrounds⟩
      rw [htasks, TaskSet.update_of_phase? hphase]
      exact TaskSet.phase?_setPhase_self (TaskSet.lt_of_phase? hphase) _
    · refine .inl (job?_eq_some.2 ?_)
      rw [htasks, TaskSet.update_of_phase? (phase?_of_job? hbefore),
        TaskSet.phase?_setPhase_of_ne heq]
      exact hphase
  | @stop a p other job hbefore hover htasks =>
    have hne : id ≠ other := by
      intro heq
      rw [hsame hbefore heq, Job.period?] at hover
      rcases hover with hzero | hnone
      · exact Nat.ne_of_gt hperiod (Option.some.inj hzero)
      · cases hnone
    refine .inl (job?_eq_some.2 ?_)
    rw [htasks, TaskSet.finish_of_phase? (phase?_of_job? hbefore), TaskSet.phase?_setPhase_of_ne hne]
    exact hphase
  | abort htasks => exact absurd rfl hstays

/-- Whether heartbeats and renewals keep to the client's settings, and no heartbeat is due later
than within its period. -/
structure Regular (o : Outpost) : Prop where
  orderly : o.member.client.Orderly
  beats : ∀ id period next ttl, o.job? id = some (.heartbeat period next ttl) →
    next ≤ o.now + period ∧ ∃ config, o.config? = some config ∧ config.ttl.toNat = ttl
  rounds : ∀ r ∈ o.rounds, ∃ config, o.config? = some config ∧ config.ttl.toNat = r.ttl

theorem Course.regular (h : Course o a p) (ho : o.Regular) : p.Regular where
  orderly := h.orderly ho.orderly
  beats := by
    intro id period next ttl hjob
    have hnow := h.now
    rcases h.beats ho.orderly hjob with
      hold | ⟨rfl, config, hconfig, hterm⟩ | ⟨due, hold, hdue, rfl⟩
    · obtain ⟨hnext, config, hconfig, hterm⟩ := ho.beats id period next ttl hold
      exact ⟨by omega, config, h.config hconfig, hterm⟩
    · exact ⟨by omega, config, h.config hconfig, hterm⟩
    · obtain ⟨-, config, hconfig, hterm⟩ := ho.beats id period due ttl hold
      exact ⟨by omega, config, h.config hconfig, hterm⟩
  rounds := by
    have hkept {ttl : Nat} (hbefore : ∃ config, o.config? = some config ∧ config.ttl.toNat = ttl) :
        ∃ config, p.config? = some config ∧ config.ttl.toNat = ttl := by
      obtain ⟨config, hconfig, hterm⟩ := hbefore
      exact ⟨config, h.config hconfig, hterm⟩
    intro r hr
    cases h.renews with
    | same hrounds => exact hkept (ho.rounds r (hrounds ▸ hr))
    | asked hconfig hrounds =>
      rcases List.mem_append.1 (hrounds ▸ hr) with hr | hr
      · exact hkept (ho.rounds r hr)
      · obtain rfl := List.mem_singleton.1 hr
        exact hkept ⟨_, hconfig, rfl⟩
    | turn hjob hrounds =>
      rcases List.mem_append.1 (hrounds ▸ hr) with hr | hr
      · exact hkept (ho.rounds r hr)
      · obtain rfl := List.mem_singleton.1 hr
        exact hkept (ho.beats _ _ _ _ hjob).2
    | goesOn hbefore hrounds =>
      rcases List.mem_or_eq_of_mem_set (hrounds ▸ hr) with hr | rfl
      · exact hkept (ho.rounds r hr)
      · rw [(Round.goes_step _ _ _).ttl]
        exact hkept (ho.rounds _ (List.mem_of_getElem? hbefore))

theorem Regular.run (ho : o.Regular) (actions : List Action) : (o.run actions).Regular := by
  induction actions generalizing o with
  | nil => exact ho
  | cons a rest ih => exact ih ((o.course a).regular ho)

/-! ### What is written -/

/-- When an action writes or extends the record of a node: an entry is there after it that was not
there before. -/
def written? (node : String) (o : Outpost) (a : Action) : Option Nat :=
  match (o.step a).store.entries.find? (recordKey node) with
  | some e => if o.store.entries.find? (recordKey node) = some e then none else some o.now
  | none => none

/-- **An entry was there before, or it was written by a registration or a renewal** and is as new
as one can be. -/
theorem entry_of_course (h : Course o a p) (ho : o.Regular) (halone : a.usesAlone node = true)
    {e : Entry} (he : p.store.entries.find? (recordKey node) = some e) :
    o.store.entries.find? (recordKey node) = some e ∨
      (o.registered? node a ≠ none ∨ o.visits node a = true) ∧
        ∃ config, o.config? = some config ∧ e.deadline = o.now + config.ttl.toNat := by
  have hkept (h : p.store.entries.find? (recordKey node) =
      o.store.entries.find? (recordKey node) ∨ p.store.entries.find? (recordKey node) = none) :
      o.store.entries.find? (recordKey node) = some e := by
    rcases h with hsame | hnone
    · exact hsame.symm.trans he
    · rw [hnone] at he
      cases he
  cases h.touch halone with
  | rest hother hrests => exact .inl (hkept hrests.entry)
  | givenUp hgone hentry => exact .inl (hkept hentry)
  | registered hnew hconfig hstore =>
    rw [hstore, Dict.find?_insert_self] at he
    obtain rfl := Option.some.inj he
    exact .inr ⟨.inl (by rw [hnew]; exact Option.some_ne_none _), _, hconfig, rfl⟩
  | @visited n r hr hat =>
    obtain ⟨config, hconfig, hterm⟩ := ho.rounds r (List.mem_of_getElem? hr)
    have hvisits : o.visits node (.round n) = true := by rw [visits, hr, Option.any_some, hat]
    refine ((r.goes_step o.store o.now).entry he).imp_right fun hdeadline => ?_
    exact ⟨.inr hvisits, config, hconfig, hterm ▸ hdeadline⟩

/-- Whether the record of a node ends a lease after it was written last. -/
def Dated (node : String) (written : Option Nat) (o : Outpost) : Prop :=
  ∀ e, o.record? node = some e → ∃ config moment, o.config? = some config ∧
    written = some moment ∧ e.deadline = moment + config.ttl.toNat

theorem Dated.step {written : Option Nat} (h : Dated node written o) (ho : o.Regular)
    (halone : a.usesAlone node = true) :
    Dated node ((o.written? node a).or written) (o.step a) := by
  intro e he
  have hcourse := o.course a
  obtain ⟨hentry, hlive⟩ := Option.filter_eq_some_iff.1 he
  by_cases hbefore : o.store.entries.find? (recordKey node) = some e
  · -- The record was there already, and was live then as it is now.
    have hunwritten : o.written? node a = none := by
      rw [written?, hentry]
      exact if_pos hbefore
    have hsame : o.record? node = some e := by
      refine Option.filter_eq_some_iff.2 ⟨hbefore, decide_eq_true ?_⟩
      exact Nat.lt_of_le_of_lt hcourse.now (of_decide_eq_true hlive)
    obtain ⟨config, moment, hconfig, hmoment, hdeadline⟩ := h e hsame
    exact ⟨config, moment, hcourse.config hconfig, by rw [hunwritten]; exact hmoment, hdeadline⟩
  · have hwritten : o.written? node a = some o.now := by
      rw [written?, hentry]
      exact if_neg hbefore
    obtain ⟨-, config, hconfig, hdeadline⟩ :=
      (entry_of_course hcourse ho halone hentry).resolve_left hbefore
    exact ⟨config, o.now, hcourse.config hconfig, by rw [hwritten]; rfl, hdeadline⟩

theorem Dated.run {written : Option Nat} (h : Dated node written o) (ho : o.Regular)
    {actions : List Action} (halone : actions.all (·.usesAlone node) = true) :
    Dated node ((o.latest? (written? node) actions).or written) (o.run actions) := by
  induction actions generalizing o written with
  | nil => exact h
  | cons a rest ih =>
    obtain ⟨ha, hrest⟩ := Bool.and_eq_true_iff.1 halone
    have hlater := ih (h.step ho ha) ((o.course a).regular ho) hrest
    rwa [← Option.or_assoc] at hlater

end Outpost
end RemoteCall.Registry
