import RemoteCall.Proofs.Registry.Alike
import RemoteCall.Proofs.Registry.Moves

/-! Watches for the cache.

A client watches nodes for its cache, and may be asked to watch nodes for somebody outside as
well. What its cache goes by is no more than the cache itself and the watches for it
(`Client.vigil`): of each of them, what the store holds and has announced of the node since.
Two clients at two stores mind the same if they agree in this (`Minds`), and go on to do so when
the same is done to both. -/
namespace RemoteCall.Registry

/-! ### One watch -/

namespace Watch
variable {v w : Watch} {s t : Store} {events : List Event} {count : Nat}

/-- Whether a watch that takes so many announcements takes all there are of its node, and none
was lost before. -/
def hearsOut (w : Watch) (events : List Event) (count : Nat) : Bool :=
  events.length ≤ w.heard + eventCapacity &&
    (events.drop (w.heard + count)).all fun e => e.key ≠ recordKey w.node

theorem listenAll_fire (hbehind : events.length ≤ w.heard + eventCapacity) {e : Event}
    (he : e ∈ (events.drop w.heard).take count) (hkey : e.key = recordKey w.node) :
    w.listenAll events count = .fire := by
  induction count generalizing w with
  | zero => cases he
  | succ count ih =>
    have hlt : w.heard < events.length := by
      by_contra hge
      rw [List.drop_eq_nil_of_le (Nat.le_of_not_lt hge)] at he
      cases he
    rw [List.drop_eq_getElem_cons hlt, List.take_succ_cons] at he
    rw [listenAll, step, if_neg (Nat.not_lt.2 hbehind), List.getElem?_eq_getElem hlt]
    dsimp only
    by_cases hfirst : events[w.heard].key = recordKey w.node
    · rw [if_pos hfirst]
    · rw [if_neg hfirst]
      have hrest := (List.mem_cons.1 he).resolve_left fun heq => hfirst (heq ▸ hkey)
      exact ih (w := { w with heard := w.heard + 1 }) (by dsimp only; omega) hrest hkey

theorem listenAll_listen (hbehind : events.length ≤ w.heard + eventCapacity)
    (hheard : w.heard ≤ events.length)
    (hnone : ∀ e ∈ events.drop w.heard, e.key ≠ recordKey w.node) (count : Nat) :
    ∃ m, w.listenAll events count = .listen { w with heard := m } ∧
      w.heard ≤ m ∧ m ≤ events.length := by
  induction count generalizing w with
  | zero => exact ⟨w.heard, rfl, Nat.le_refl _, hheard⟩
  | succ count ih =>
    rw [listenAll, step, if_neg (Nat.not_lt.2 hbehind)]
    by_cases hlt : w.heard < events.length
    · rw [List.drop_eq_getElem_cons hlt] at hnone
      obtain ⟨hfirst, hrest⟩ := List.forall_mem_cons.1 hnone
      rw [List.getElem?_eq_getElem hlt]
      dsimp only
      rw [if_neg hfirst]
      obtain ⟨m, hlisten, hle, hm⟩ :=
        ih (w := { w with heard := w.heard + 1 }) (by dsimp only; omega) hlt hrest
      exact ⟨m, hlisten, Nat.le_of_succ_le hle, hm⟩
    · rw [List.getElem?_eq_none (Nat.le_of_not_lt hlt)]
      exact ⟨w.heard, rfl, Nat.le_refl _, hheard⟩

theorem unheard_eq_nil {key : String} {n : Nat} :
    s.unheard key n = [] ↔ ∀ e ∈ s.events.drop n, e.key ≠ key := by
  simp [Store.unheard]

/-- A watch that hears out what there is of its node is over if there is anything. -/
theorem listenAll_of_hearsOut (h : w.hearsOut s.events count = true)
    (hnews : s.unheard (recordKey w.node) w.heard ≠ []) :
    w.listenAll s.events count = .fire := by
  obtain ⟨hbehind, hrest⟩ := Bool.and_eq_true_iff.1 h
  obtain ⟨e, he⟩ := List.exists_mem_of_ne_nil _ hnews
  obtain ⟨hmem, hkey⟩ := List.mem_filter.1 he
  rw [← List.take_append_drop count (s.events.drop w.heard), List.drop_drop] at hmem
  rcases List.mem_append.1 hmem with htaken | hleft
  · exact listenAll_fire (of_decide_eq_true hbehind) htaken (of_decide_eq_true hkey)
  · exact absurd (of_decide_eq_true hkey) (of_decide_eq_true (List.all_eq_true.1 hrest e hleft))

/-- **Two watches that hear out what there is of a node hear the same of it.** -/
theorem listenAll_alike (h : Store.Alike (recordKey w.node) v.heard w.heard s t)
    (hnode : v.node = w.node) (hv : v.hearsOut s.events count = true)
    (hw : w.hearsOut t.events count = true) :
    (v.listenAll s.events count = .fire ∧ w.listenAll t.events count = .fire) ∨
      ∃ m n, v.listenAll s.events count = .listen { v with heard := m } ∧
        w.listenAll t.events count = .listen { w with heard := n } ∧
        Store.Alike (recordKey w.node) m n s t := by
  by_cases hnews : t.unheard (recordKey w.node) w.heard = []
  · have hnews' : s.unheard (recordKey v.node) v.heard = [] := by
      rw [hnode, h.unheard, hnews]
    have hquiet {u : Store} {key : String} {m n : Nat} (hmn : m ≤ n) (hm : u.unheard key m = []) :
        u.unheard key n = [] :=
      unheard_eq_nil.2 fun e he => unheard_eq_nil.1 hm e (List.drop_subset_drop_left _ hmn he)
    obtain ⟨m, hlisten, hle, hm⟩ := listenAll_listen
      (of_decide_eq_true (Bool.and_eq_true_iff.1 hv).1) h.left (unheard_eq_nil.1 hnews') count
    obtain ⟨n, hlisten', hle', hn⟩ := listenAll_listen
      (of_decide_eq_true (Bool.and_eq_true_iff.1 hw).1) h.right (unheard_eq_nil.1 hnews) count
    refine .inr ⟨m, n, hlisten, hlisten', h.available, h.entry, hm, hn, ?_⟩
    rw [hquiet hle (hnode ▸ hnews'), hquiet hle' hnews]
  · refine .inl ⟨listenAll_of_hearsOut hv ?_, listenAll_of_hearsOut hw hnews⟩
    rwa [hnode, h.unheard]

end Watch

/-! ### Tasks -/

/-- Whether a task watches for somebody outside. -/
def Job.direct : Job → Bool
  | .watch w => w.listener ≠ .cache
  | _ => false

/-- The watch for the cache that a task is, if it is one. -/
def Job.vigil? : Job → Option Watch
  | .watch w => if w.listener = .cache then some w else none
  | _ => none

namespace Client
variable {now : Nat} {s t : Store} {c d : Client} {node key other : String} {w : Watch} {job : Job}
  {count : Nat}

/-- The watch of a node for the cache. -/
def vigil (c : Client) (node : String) : Option Watch :=
  (c.tasks.at? (watchTask node)).bind Job.vigil?

/-- Whether a client watches a node for somebody outside. -/
def lends (c : Client) (node : String) : Bool := (c.tasks.at? (watchTask node)).any Job.direct

/-- The task that sweeps the store. -/
def sweeper (c : Client) : Option Job := c.tasks.at? sweeperTask

theorem at?_of_vigil (h : c.vigil node = some w) :
    c.tasks.at? (watchTask node) = some (.watch w) ∧ w.listener = .cache := by
  obtain ⟨job, hjob, hw⟩ := Option.bind_eq_some_iff.1 h
  cases job with
  | watch v =>
    rw [Job.vigil?] at hw
    split at hw
    · next hlistener =>
      obtain rfl := Option.some.inj hw
      exact ⟨hjob, hlistener⟩
    · cases hw
  | sweeper period next => cases hw
  | heartbeat period next ttl => cases hw

theorem Orderly.node_of_vigil (h : c.Orderly) (hw : c.vigil node = some w) : w.node = node :=
  (watchTask_inj (h.tasks.keyed _ _ (at?_of_vigil hw).1)).symm

/-- What runs under the key of the watch of a node is such a watch. -/
theorem Orderly.watch_of_at? (h : c.Orderly) (hjob : c.tasks.at? (watchTask node) = some job) :
    ∃ w, job = .watch w ∧ w.node = node := by
  have hkey := h.tasks.keyed _ _ hjob
  cases job with
  | watch w => exact ⟨w, rfl, (watchTask_inj hkey).symm⟩
  | sweeper period next => exact absurd hkey (watchTask_ne_sweeperTask node)
  | heartbeat period next ttl => exact absurd hkey (watchTask_ne_heartbeatTask node)

theorem Orderly.idle (h : c.Orderly) (hvigil : c.vigil node = none)
    (hlends : c.lends node = false) :
    c.tasks.at? (watchTask node) = none := by
  cases hjob : c.tasks.at? (watchTask node) with
  | none => rfl
  | some job =>
    obtain ⟨w, rfl, -⟩ := h.watch_of_at? hjob
    rw [vigil, hjob] at hvigil
    rw [lends, hjob] at hlends
    by_cases hlistener : w.listener = .cache
    · simp [Job.vigil?, hlistener] at hvigil
    · simp [Job.direct, hlistener] at hlends

/-! What a client does leaves its other tasks alone. -/

theorem Orderly.at?_heartBeat (h : c.Orderly) (hother : other ≠ heartbeatTask) :
    (c.heartBeat now).2.tasks.at? other = c.tasks.at? other := by
  cases hconfig : c.config with
  | none => rw [heartBeat_of_none hconfig]
  | some config =>
    rw [heartBeat_of_some hconfig]
    exact (h.tasks.tidy.at?_spawn _ _ _).trans (if_neg hother)

theorem Orderly.at?_due (h : c.Orderly) (hother : other ≠ key) :
    (c.due s now key).2.tasks.at? other = c.tasks.at? other := by
  unfold Client.due
  split
  · next job hjob =>
    have hfinish : (c.tasks.finish (c.tasks.idOf key)).at? other = c.tasks.at? other :=
      (h.tasks.tidy.at?_finish hjob other).trans (if_neg hother)
    have hupdate (job' : Job) :
        (c.tasks.update (c.tasks.idOf key) job').at? other = c.tasks.at? other :=
      (h.tasks.tidy.at?_update hjob job' other).trans (if_neg hother)
    cases job with
    | watch w => rfl
    | sweeper period next =>
      unfold runDue
      dsimp only
      split
      · rfl
      · split
        · exact hfinish
        · exact hupdate _
    | heartbeat period next ttl =>
      unfold runDue
      dsimp only
      split
      · rfl
      · split
        · exact hfinish
        · exact hupdate _
  · rfl

theorem Orderly.at?_listen (h : c.Orderly) (hother : other ≠ key) :
    (c.listen s key count).2.tasks.at? other = c.tasks.at? other := by
  unfold Client.listen
  split
  · next job hjob =>
    cases job with
    | sweeper period next => rfl
    | heartbeat period next ttl => rfl
    | watch w =>
      unfold hear
      dsimp only
      cases w.listenAll s.events count with
      | wait => rfl
      | fire => exact (h.tasks.tidy.at?_finish hjob other).trans (if_neg hother)
      | listen v => exact (h.tasks.tidy.at?_update hjob _ other).trans (if_neg hother)
  · rfl

/-- Only a sweeper and a heartbeat have turns. -/
theorem Orderly.due_of_watch (h : c.Orderly) (hsweeper : key ≠ sweeperTask)
    (hheartbeat : key ≠ heartbeatTask) : c.due s now key = (s, c) := by
  unfold Client.due
  split
  · next job hjob =>
    have hkey := h.tasks.keyed key job hjob
    cases job with
    | watch w => rfl
    | sweeper period next => exact absurd hkey hsweeper
    | heartbeat period next ttl => exact absurd hkey hheartbeat
  · rfl

/-! So sweeping and watching for the cache go on. -/

theorem Orderly.vigil_init (h : c.Orderly) (config : RegistryConfig) (node : String) :
    (c.init now config).vigil node = c.vigil node :=
  congrArg (Option.bind · Job.vigil?)
    ((h.tasks.tidy.at?_spawn _ _ _).trans (if_neg (watchTask_ne_sweeperTask node)))

theorem Orderly.vigil_heartBeat (h : c.Orderly) (node : String) :
    (c.heartBeat now).2.vigil node = c.vigil node :=
  congrArg (Option.bind · Job.vigil?) (h.at?_heartBeat (watchTask_ne_heartbeatTask node))

theorem Orderly.vigil_due (h : c.Orderly) (key node : String) :
    (c.due s now key).2.vigil node = c.vigil node := by
  by_cases hkey : watchTask node = key
  · subst hkey
    rw [h.due_of_watch (watchTask_ne_sweeperTask node) (watchTask_ne_heartbeatTask node)]
  · exact congrArg (Option.bind · Job.vigil?) (h.at?_due hkey)

theorem Orderly.vigil_destroy (h : c.Orderly) (s : Store) (now : Nat) (node : String) :
    (c.destroy s now).2.vigil node = none :=
  congrArg (Option.bind · Job.vigil?) (h.tasks.tidy.at?_abortAll (watchTask node))

theorem vigil_register (c : Client) (s : Store) (now : Nat) (i : Instance) (node : String) :
    (c.register s now i).2.2.vigil node = c.vigil node :=
  congrArg (fun tasks : TaskSet Job => (tasks.at? (watchTask node)).bind Job.vigil?)
    (tasks_register i)

theorem sweeper_register (c : Client) (s : Store) (now : Nat) (i : Instance) :
    (c.register s now i).2.2.sweeper = c.sweeper :=
  congrArg (fun tasks : TaskSet Job => tasks.at? sweeperTask) (tasks_register i)

theorem Orderly.sweeper_heartBeat (h : c.Orderly) : (c.heartBeat now).2.sweeper = c.sweeper :=
  h.at?_heartBeat sweeperTask_ne_heartbeatTask

theorem Orderly.sweeper_destroy (h : c.Orderly) (s : Store) (now : Nat) :
    (c.destroy s now).2.sweeper = none :=
  h.tasks.tidy.at?_abortAll sweeperTask

theorem Orderly.sweeper_listen (h : c.Orderly) (key : String) (count : Nat) :
    (c.listen s key count).2.sweeper = c.sweeper := by
  by_cases hkey : sweeperTask = key
  · subst hkey
    rw [Client.listen]
    cases hjob : c.tasks.at? sweeperTask with
    | none => rfl
    | some job =>
      have hkind := h.tasks.keyed sweeperTask job hjob
      cases job with
      | watch w => exact absurd hkind.symm (watchTask_ne_sweeperTask w.node)
      | sweeper period next => rfl
      | heartbeat period next ttl => rfl
  · exact h.at?_listen hkey

theorem Orderly.sweeper_watch (h : c.Orderly) (node : String) (listener : Listener) :
    (c.watch s now node listener).2.2.sweeper = c.sweeper := by
  obtain ⟨t, ⟨-, -, hwatch⟩ | ⟨e, hwatch⟩ | hwatch | ⟨-, -, hwatch⟩⟩ :=
    watch_cases c s now node listener
  all_goals rw [hwatch]
  exact (h.tasks.tidy.at?_spawn _ _ _).trans (if_neg (watchTask_ne_sweeperTask node).symm)

/-! ### Clients that do the same -/

/-- Two clients with the same settings, instances and turns. -/
structure Akin (c d : Client) : Prop where
  config : c.config = d.config
  own : c.own = d.own
  sweeper : c.sweeper = d.sweeper
  beat : c.tasks.at? heartbeatTask = d.tasks.at? heartbeatTask

section Akin
variable (h : Akin c d) (hc : c.Orderly) (hd : d.Orderly)
include h hc hd

theorem Akin.sweeper_init (config : RegistryConfig) :
    (c.init now config).sweeper = (d.init now config).sweeper := by
  have hat (c : Client) (hc : c.Orderly) : (c.init now config).sweeper =
      some (c.sweeper.getD (.sweeper (c.config.getD config).sweepInterval.toNat now)) :=
    (hc.tasks.tidy.at?_spawn _ _ _).trans (if_pos rfl)
  rw [hat c hc, hat d hd, h.sweeper, h.config]

theorem Akin.sweeper_due (key : String) :
    (c.due s now key).2.sweeper = (d.due t now key).2.sweeper := by
  by_cases hkey : sweeperTask = key
  · subst hkey
    cases hjob : c.tasks.at? sweeperTask with
    | none =>
      rw [due_of_none hjob, due_of_none (h.sweeper.symm.trans hjob)]
      exact h.sweeper
    | some job =>
      have hjob' : d.tasks.at? sweeperTask = some job := h.sweeper.symm.trans hjob
      have hkind := hc.tasks.keyed sweeperTask job hjob
      cases job with
      | watch w => exact absurd hkind.symm (watchTask_ne_sweeperTask w.node)
      | heartbeat period next ttl => exact absurd hkind sweeperTask_ne_heartbeatTask
      | sweeper period next =>
        rw [due, due, hjob, hjob']
        unfold runDue
        dsimp only
        split
        · exact h.sweeper
        · split
          · exact ((hc.tasks.tidy.at?_finish hjob sweeperTask).trans (if_pos rfl)).trans
              ((hd.tasks.tidy.at?_finish hjob' sweeperTask).trans (if_pos rfl)).symm
          · exact ((hc.tasks.tidy.at?_update hjob _ sweeperTask).trans (if_pos rfl)).trans
              ((hd.tasks.tidy.at?_update hjob' _ sweeperTask).trans (if_pos rfl)).symm
  · exact (hc.at?_due hkey).trans (h.sweeper.trans (hd.at?_due hkey).symm)

end Akin

variable {m n : Nat}

open Store (Alike)

theorem alike_register (h : Alike key m n s t) (hconfig : c.config = d.config) (i : Instance) :
    Alike key m n (c.register s now i).2.1 (d.register t now i).2.1 := by
  by_cases hrefused : c.config = none ∨ s.available = false
  · have hrefused' : d.config = none ∨ t.available = false := by
      rwa [← hconfig, ← h.available]
    rw [register_of_refused hrefused, register_of_refused hrefused']
    exact h
  · obtain ⟨hnone, hoffline⟩ := not_or.1 hrefused
    obtain ⟨config, hsome⟩ := Option.ne_none_iff_exists'.1 hnone
    replace hoffline : s.available = true := Bool.eq_true_of_not_eq_false hoffline
    rw [register_of_online hsome hoffline,
      register_of_online (hconfig ▸ hsome) (h.available ▸ hoffline)]
    exact h.put _ _ _

theorem alike_renew (h : Alike key m n s t) (hconfig : c.config = d.config) (hown : c.own = d.own) :
    Alike key m n (c.renew s now).2 (d.renew t now).2 := by
  cases hsome : c.config with
  | none =>
    rw [renew_of_none hsome, renew_of_none (hconfig ▸ hsome)]
    exact h
  | some config =>
    rw [renew_of_some hsome, renew_of_some (hconfig ▸ hsome), hown]
    exact alike_renewAll h d.own

theorem alike_due (h : Alike key m n s t) (hs : s.entries.Sorted) (ht : t.entries.Sorted)
    (hakin : Akin c d) (hc : c.Orderly) (hd : d.Orderly) (task : String) :
    Alike key m n (c.due s now task).1 (d.due t now task).1 := by
  by_cases htask : task = sweeperTask ∨ task = heartbeatTask
  · have hsame : c.tasks.at? task = d.tasks.at? task := by
      rcases htask with rfl | rfl
      · exact hakin.sweeper
      · exact hakin.beat
    cases hjob : c.tasks.at? task with
    | none =>
      rw [due_of_none hjob, due_of_none (hsame ▸ hjob)]
      exact h
    | some job =>
      rw [due, due, ← hsame, hjob]
      cases job with
      | watch w => exact h
      | sweeper period next =>
        unfold runDue
        dsimp only
        split
        · exact h
        · split
          · exact h
          · exact h.sweep hs ht
      | heartbeat period next ttl =>
        unfold runDue
        dsimp only
        split
        · exact h
        · split
          · exact h
          · rw [hakin.own]
            exact alike_renewAll h d.own
  · obtain ⟨hsweeper, hheartbeat⟩ := not_or.1 htask
    rw [hc.due_of_watch hsweeper hheartbeat, hd.due_of_watch hsweeper hheartbeat]
    exact h

end Client

end RemoteCall.Registry
