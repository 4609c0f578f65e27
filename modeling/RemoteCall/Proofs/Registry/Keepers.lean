import RemoteCall.Proofs.Registry.Tasks
import RemoteCall.Proofs.Registry.Visible

/-! What a client has to do with a node.

Three things decide what a client will do to the record of a node: its settings, the instance
that it registered there, and the task that renews its records (`Keeper`). The others of its
tasks have no part in it, for every task runs under the key of its kind (`Client.Orderly`). -/
namespace RemoteCall.Registry

/-! ### Parts of what a client does -/

section
variable {s : Store} {now : Nat}

theorem Client.keyed_register {c : Client} (h : c.Keyed) (i : Instance) :
    (c.register s now i).2.2.Keyed := by
  unfold Client.register
  split
  · exact h
  · split
    · intro p hp
      rcases Dict.mem_of_mem_insert hp with rfl | hp
      · rfl
      · exact h p hp
    · exact h

theorem Client.watchTask_inj {node other : String}
    (h : Client.watchTask node = Client.watchTask other) : node = other := by
  unfold Client.watchTask at h
  exact String.toList_inj.1 (List.append_cancel_left (by
    simpa only [String.toList_append] using congrArg String.toList h))

theorem Client.tasks_register {c : Client} (i : Instance) :
    (c.register s now i).2.2.tasks = c.tasks := by
  unfold Client.register
  split
  · rfl
  · split <;> rfl

theorem client_notify (c : CachedClient) (notice : Option Notice) :
    (c.notify? notice).client = c.client := by
  cases notice with
  | none => rfl
  | some n =>
    show (c.notify n).client = _
    unfold CachedClient.notify
    split <;> rfl

end

/-! ### Order -/

/-- The key under which a task is started. -/
def Job.key : Job → String
  | .sweeper _ _ => Client.sweeperTask
  | .heartbeat _ _ _ => Client.heartbeatTask
  | .watch w => Client.watchTask w.node

theorem Client.sweeperTask_ne_heartbeatTask : sweeperTask ≠ heartbeatTask := by decide

theorem Client.watchTask_ne_heartbeatTask (node : String) : watchTask node ≠ heartbeatTask := by
  intro h
  have := congrArg String.toList h
  simp [heartbeatTask, watchTask] at this

theorem Client.watchTask_ne_sweeperTask (node : String) : watchTask node ≠ sweeperTask := by
  intro h
  have := congrArg String.toList h
  simp [sweeperTask, watchTask] at this

namespace Watch
variable {w v : Watch} {events : List Event}

theorem target_of_step (h : w.step events = .listen v) :
    v.node = w.node ∧ v.listener = w.listener := by
  unfold step at h
  split at h
  · cases h
  · split at h
    · cases h
    · split at h
      · cases h
      · obtain rfl := Next.listen.inj h
        exact ⟨rfl, rfl⟩

theorem target_of_listenAll {count : Nat} (h : w.listenAll events count = .listen v) :
    v.node = w.node ∧ v.listener = w.listener := by
  induction count generalizing w with
  | zero =>
    obtain rfl := Next.listen.inj h
    exact ⟨rfl, rfl⟩
  | succ count ih =>
    rw [listenAll] at h
    split at h
    · obtain rfl := Next.listen.inj h
      exact ⟨rfl, rfl⟩
    · cases h
    · next u hu =>
      obtain ⟨hnode, hlistener⟩ := target_of_step hu
      obtain ⟨hnode', hlistener'⟩ := ih h
      exact ⟨hnode'.trans hnode, hlistener'.trans hlistener⟩

end Watch

namespace TaskSet

/-- Whether a set is tidy and every task that runs is held under the key of its kind. -/
structure Orderly (t : TaskSet Job) : Prop where
  tidy : t.Tidy
  keyed : ∀ key job, t.at? key = some job → key = job.key

variable {t : TaskSet Job} {key : String} {job job' : Job}

theorem orderly_empty : Orderly {} where
  tidy := tidy_empty
  keyed _ _ h := by cases h

theorem Orderly.spawn (h : t.Orderly) (job : Job) : (t.spawnIfAbsent job.key job).2.Orderly where
  tidy := h.tidy.spawn _ _
  keyed key job' hjob' := by
    rw [h.tidy.at?_spawn] at hjob'
    split at hjob'
    · next heq =>
      cases hbefore : t.at? job.key with
      | none =>
        rw [hbefore] at hjob'
        obtain rfl := Option.some.inj hjob'
        exact heq
      | some before =>
        rw [hbefore] at hjob'
        obtain rfl := Option.some.inj hjob'
        exact heq.trans (h.keyed _ _ hbefore)
    · exact h.keyed key job' hjob'

theorem Orderly.update (h : t.Orderly) (hjob : t.at? key = some job) (hkey : job'.key = job.key) :
    (t.update (t.idOf key) job').Orderly where
  tidy := h.tidy.change _ _
  keyed other job'' hjob'' := by
    rw [h.tidy.at?_update hjob] at hjob''
    split at hjob''
    · next heq =>
      obtain rfl := Option.some.inj hjob''
      rw [heq, hkey]
      exact h.keyed key job hjob
    · exact h.keyed other job'' hjob''

theorem Orderly.finish (h : t.Orderly) (hjob : t.at? key = some job) :
    (t.finish (t.idOf key)).Orderly where
  tidy := h.tidy.change _ _
  keyed other job' hjob' := by
    rw [h.tidy.at?_finish hjob] at hjob'
    split at hjob'
    · cases hjob'
    · exact h.keyed other job' hjob'

theorem Orderly.abortAll (h : t.Orderly) : t.abortAll.Orderly where
  tidy := h.tidy.abortAll
  keyed key job hjob := by
    rw [h.tidy.at?_abortAll] at hjob
    cases hjob

end TaskSet

/-- Whether a client keeps its instances and its tasks in order. -/
structure Client.Orderly (c : Client) : Prop where
  own : c.own.Sorted
  tasks : c.tasks.Orderly

/-- What a client has to do with a node. -/
structure Keeper where
  config : Option RegistryConfig := none
  /-- The instance that the client registered there. -/
  own : Option Instance := none
  /-- The task that renews the records of the client. -/
  beat : Option Job := none

def Client.keeper (c : Client) (node : String) : Keeper where
  config := c.config
  own := c.own.find? node
  beat := c.tasks.at? heartbeatTask

namespace Client
variable {now : Nat} {s : Store} {c : Client} {node : String}

theorem orderly_empty : Orderly {} where
  own := Dict.sorted_nil
  tasks := TaskSet.orderly_empty

/-! ### Tasks that are started -/

theorem Orderly.spawn (h : c.Orderly) (config : Option RegistryConfig) (job : Job) :
    Orderly { c with config := config, tasks := (c.tasks.spawnIfAbsent job.key job).2 } where
  own := h.own
  tasks := h.tasks.spawn job

/-- A task that is no heartbeat is started. -/
theorem Orderly.keeper_spawn (h : c.Orderly) (config : Option RegistryConfig) (job : Job)
    (hkey : job.key ≠ heartbeatTask) (node : String) :
    keeper { c with config := config, tasks := (c.tasks.spawnIfAbsent job.key job).2 } node =
      { c.keeper node with config := config } := by
  rw [keeper, h.tasks.tidy.at?_spawn, if_neg hkey.symm]
  rfl

theorem Orderly.init (h : c.Orderly) (config : RegistryConfig) : (c.init now config).Orderly :=
  h.spawn (some (c.config.getD config)) (.sweeper (c.config.getD config).sweepInterval.toNat now)

theorem Orderly.keeper_init (h : c.Orderly) (config : RegistryConfig) :
    (c.init now config).keeper node =
      { c.keeper node with config := some (c.config.getD config) } :=
  h.keeper_spawn (some (c.config.getD config))
    (.sweeper (c.config.getD config).sweepInterval.toNat now)
    sweeperTask_ne_heartbeatTask node

theorem renew_of_none (h : c.config = none) : (c.renew s now).2 = s := by
  rw [renew, h]

theorem renew_of_some {config : RegistryConfig} (h : c.config = some config) :
    (c.renew s now).2 = (renewAll s now config.ttl.toNat c.own).2 := by
  rw [renew, h]

theorem heartBeat_of_none (h : c.config = none) : (c.heartBeat now).2 = c := by
  rw [heartBeat, h]

theorem heartBeat_of_some {config : RegistryConfig} (h : c.config = some config) :
    (c.heartBeat now).2 = { c with tasks := (c.tasks.spawnIfAbsent heartbeatTask
      (.heartbeat config.heartbeatInterval.toNat now config.ttl.toNat)).2 } := by
  rw [heartBeat, h]

theorem Orderly.heartBeat (h : c.Orderly) : (c.heartBeat now).2.Orderly := by
  cases hconfig : c.config with
  | none =>
    rw [heartBeat_of_none hconfig]
    exact h
  | some config =>
    rw [heartBeat_of_some hconfig]
    exact h.spawn _ (.heartbeat config.heartbeatInterval.toNat now config.ttl.toNat)

theorem Orderly.keeper_heartBeat (h : c.Orderly) {config : RegistryConfig}
    (hconfig : c.config = some config) :
    (c.heartBeat now).2.keeper node = { c.keeper node with
      beat := some ((c.keeper node).beat.getD
        (.heartbeat config.heartbeatInterval.toNat now config.ttl.toNat)) } := by
  rw [heartBeat_of_some hconfig, keeper, h.tasks.tidy.at?_spawn, if_pos rfl]
  rfl

theorem Orderly.watch (h : c.Orderly) (node : String) (listener : Listener) :
    (c.watch s now node listener).2.2.Orderly := by
  obtain ⟨t, ⟨-, -, hwatch⟩ | ⟨e, hwatch⟩ | hwatch | ⟨-, -, hwatch⟩⟩ :=
    watch_cases c s now node listener
  all_goals rw [hwatch]
  · exact h
  · exact h
  · exact h
  · exact h.spawn _ (.watch ⟨node, listener, s.events.length⟩)

theorem Orderly.keeper_watch (h : c.Orderly) (watched : String) (listener : Listener) :
    (c.watch s now watched listener).2.2.keeper node = c.keeper node := by
  obtain ⟨t, ⟨-, -, hwatch⟩ | ⟨e, hwatch⟩ | hwatch | ⟨-, -, hwatch⟩⟩ :=
    watch_cases c s now watched listener
  all_goals rw [hwatch]
  exact h.keeper_spawn c.config (.watch ⟨watched, listener, s.events.length⟩)
    (watchTask_ne_heartbeatTask watched) node

/-! ### Registrations -/

theorem register_of_online {config : RegistryConfig} (hconfig : c.config = some config)
    (h : s.available = true) (i : Instance) :
    c.register s now i = (.ok (),
      (s.put now (recordKey i.nodeKey) (recordOf i) config.ttl.toNat).2,
      { c with own := c.own.insert i.nodeKey i }) := by
  have hput : s.put now (recordKey i.nodeKey) (recordOf i) config.ttl.toNat =
      (.ok (), (s.put now (recordKey i.nodeKey) (recordOf i) config.ttl.toNat).2) := by
    rw [Store.put, Store.online_of_available h]
  unfold register
  split
  · next hnone =>
    rw [hconfig] at hnone
    cases hnone
  · next config' hconfig' =>
    obtain rfl := Option.some.inj (hconfig.symm.trans hconfig')
    rw [hput]

theorem register_of_refused (h : c.config = none ∨ s.available = false) (i : Instance) :
    (c.register s now i).2 = (s, c) := by
  unfold register
  split
  · rfl
  · next config hconfig =>
    have hoffline : s.available = false :=
      h.resolve_left (by rw [hconfig]; exact Option.some_ne_none _)
    rw [Store.put, Store.online_of_offline hoffline]

theorem isOk_register (c : Client) (s : Store) (now : Nat) (i : Instance) :
    (c.register s now i).1.isOk = (c.config.isSome && s.available) := by
  unfold register
  split
  · next h =>
    rw [h]
    rfl
  · next config h =>
    rw [h, Store.put]
    cases havailable : s.available with
    | false =>
      rw [Store.online_of_offline havailable]
      rfl
    | true =>
      rw [Store.online_of_available havailable]
      rfl

theorem Orderly.register (h : c.Orderly) (i : Instance) : (c.register s now i).2.2.Orderly := by
  unfold Client.register
  split
  · exact h
  · split
    · exact ⟨h.own.insert _ _, h.tasks⟩
    · exact h

theorem Orderly.unregister (h : c.Orderly) (i : Instance) : (c.unregister s now i).2.2.Orderly where
  own := h.own.filter _
  tasks := h.tasks

theorem keeper_insert (c : Client) (i : Instance) (node : String) :
    keeper { c with own := c.own.insert i.nodeKey i } node =
      if node = i.nodeKey then { c.keeper node with own := some i } else c.keeper node := by
  rw [keeper, Dict.find?_insert]
  split <;> rfl

theorem keeper_unregister (c : Client) (s : Store) (now : Nat) (i : Instance) (node : String) :
    (c.unregister s now i).2.2.keeper node =
      if node = i.nodeKey then { c.keeper node with own := none } else c.keeper node := by
  show Keeper.mk c.config ((c.own.erase i.nodeKey).find? node) _ = _
  rw [Dict.find?_erase]
  split <;> rfl

theorem Orderly.destroy (h : c.Orderly) (s : Store) (now : Nat) : (c.destroy s now).2.Orderly where
  own := Dict.sorted_nil
  tasks := h.tasks.abortAll

theorem Orderly.keeper_destroy (h : c.Orderly) (s : Store) (now : Nat) (node : String) :
    (c.destroy s now).2.keeper node = { config := c.config } := by
  show Keeper.mk c.config none (c.tasks.abortAll.at? heartbeatTask) = _
  rw [h.tasks.tidy.at?_abortAll]

/-! ### Tasks that run -/

/-- The task under a key runs if it is due. -/
def due (c : Client) (s : Store) (now : Nat) (key : String) : Store × Client :=
  match c.tasks.at? key with
  | some job => c.runDue s now (c.tasks.idOf key) job
  | none => (s, c)

/-- The task under a key hears at most so many announcements. -/
def listen (c : Client) (s : Store) (key : String) (count : Nat) : Option Notice × Client :=
  match c.tasks.at? key with
  | some job => c.hear s (c.tasks.idOf key) count job
  | none => (none, c)

section
variable {key : String} {job job' : Job}

theorem Orderly.update (h : c.Orderly) (hjob : c.tasks.at? key = some job)
    (hkey : job'.key = job.key) :
    Orderly { c with tasks := c.tasks.update (c.tasks.idOf key) job' } where
  own := h.own
  tasks := h.tasks.update hjob hkey

theorem Orderly.finish (h : c.Orderly) (hjob : c.tasks.at? key = some job) :
    Orderly { c with tasks := c.tasks.finish (c.tasks.idOf key) } where
  own := h.own
  tasks := h.tasks.finish hjob

theorem Orderly.keeper_update (h : c.Orderly) (hjob : c.tasks.at? key = some job) (job' : Job) :
    keeper { c with tasks := c.tasks.update (c.tasks.idOf key) job' } node =
      if heartbeatTask = key then { c.keeper node with beat := some job' } else c.keeper node := by
  rw [keeper, h.tasks.tidy.at?_update hjob]
  split <;> rfl

theorem Orderly.keeper_finish (h : c.Orderly) (hjob : c.tasks.at? key = some job) :
    keeper { c with tasks := c.tasks.finish (c.tasks.idOf key) } node =
      if heartbeatTask = key then { c.keeper node with beat := none } else c.keeper node := by
  rw [keeper, h.tasks.tidy.at?_finish hjob]
  split <;> rfl

theorem Orderly.due (h : c.Orderly) (key : String) : (c.due s now key).2.Orderly := by
  unfold Client.due
  split
  · next job hjob =>
    cases job with
    | watch w => exact h
    | sweeper period next =>
      unfold runDue
      dsimp only
      split
      · exact h
      · split
        · exact h.finish hjob
        · exact h.update hjob rfl
    | heartbeat period next ttl =>
      unfold runDue
      dsimp only
      split
      · exact h
      · split
        · exact h.finish hjob
        · exact h.update hjob rfl
  · exact h

theorem Orderly.listen (h : c.Orderly) (key : String) (count : Nat) :
    (c.listen s key count).2.Orderly := by
  unfold Client.listen
  split
  · next job hjob =>
    cases job with
    | sweeper period next => exact h
    | heartbeat period next ttl => exact h
    | watch w =>
      unfold hear
      dsimp only
      cases hnext : w.listenAll s.events count with
      | wait => exact h
      | fire => exact h.finish hjob
      | listen v =>
        exact h.update hjob (congrArg watchTask (Watch.target_of_listenAll hnext).1)
  · exact h

/-- No announcement has a part in what a client has to do with a node. -/
theorem Orderly.keeper_listen (h : c.Orderly) (key : String) (count : Nat) :
    (c.listen s key count).2.keeper node = c.keeper node := by
  unfold Client.listen
  split
  · next job hjob =>
    cases job with
    | sweeper period next => rfl
    | heartbeat period next ttl => rfl
    | watch w =>
      have hkey : heartbeatTask ≠ key := by
        rw [h.tasks.keyed key _ hjob]
        exact (watchTask_ne_heartbeatTask w.node).symm
      unfold hear
      dsimp only
      cases hnext : w.listenAll s.events count with
      | wait => rfl
      | fire => exact (h.keeper_finish hjob).trans (if_neg hkey)
      | listen v => exact (h.keeper_update hjob _).trans (if_neg hkey)
  · rfl

/-- A turn of a task that is no heartbeat. -/
theorem Orderly.keeper_due (h : c.Orderly) (hkey : key ≠ heartbeatTask) :
    (c.due s now key).2.keeper node = c.keeper node := by
  unfold Client.due
  split
  · next job hjob =>
    have hother (p n t : Nat) : job ≠ .heartbeat p n t := by
      rintro rfl
      exact hkey (h.tasks.keyed key _ hjob)
    cases job with
    | watch w => rfl
    | heartbeat period next ttl => exact absurd rfl (hother _ _ _)
    | sweeper period next =>
      unfold runDue
      dsimp only
      split
      · rfl
      · split
        · exact (h.keeper_finish hjob).trans (if_neg hkey.symm)
        · exact (h.keeper_update hjob _).trans (if_neg hkey.symm)
  · rfl

theorem spares_due {kept : String → Prop} (h : ∀ p ∈ c.own, ¬kept (recordKey p.1)) (key : String) :
    Store.Spares now kept s (c.due s now key).1 := by
  unfold due
  split
  · exact spares_runDue _ fun _ _ _ _ => h
  · exact .refl s

theorem Orderly.spares_due (h : c.Orderly) {kept : String → Prop} (hkey : key ≠ heartbeatTask) :
    Store.Spares now kept s (c.due s now key).1 := by
  unfold Client.due
  split
  · next job hjob =>
    refine spares_runDue _ fun period next ttl hheartbeat => ?_
    rw [hheartbeat] at hjob
    exact absurd (h.tasks.keyed key _ hjob) hkey
  · exact .refl s

theorem due_of_none (h : c.tasks.at? key = none) : c.due s now key = (s, c) := by
  rw [due, h]

/-- A heartbeat that is not due. -/
theorem due_of_early {period next ttl : Nat}
    (h : c.tasks.at? key = some (.heartbeat period next ttl))
    (hearly : now < next) : c.due s now key = (s, c) := by
  rw [due, h]
  exact if_pos hearly

/-- A heartbeat without a period is over at its first turn. -/
theorem due_of_zero {next ttl : Nat} (h : c.tasks.at? key = some (.heartbeat 0 next ttl))
    (hdue : next ≤ now) :
    c.due s now key = (s, { c with tasks := c.tasks.finish (c.tasks.idOf key) }) := by
  rw [due, h]
  exact (if_neg (Nat.not_lt.2 hdue)).trans (if_pos rfl)

/-- A turn of the heartbeat. -/
theorem due_of_heartbeat {period next ttl : Nat}
    (h : c.tasks.at? key = some (.heartbeat period next ttl)) (hdue : next ≤ now)
    (hperiod : period ≠ 0) :
    c.due s now key = ((renewAll s now ttl c.own).2, { c with
      tasks := c.tasks.update (c.tasks.idOf key)
        (.heartbeat period (nextDue period next now) ttl) }) := by
  rw [due, h]
  exact (if_neg (Nat.not_lt.2 hdue)).trans (if_neg hperiod)

end
end Client
end RemoteCall.Registry
