import RemoteCall.Proofs.Registry.Records

/-! What the watches of a client know.

A watch that runs has either still something to watch or the end of it before itself among
the announcements that it has not heard (`Watch.Aware`), for it listened before it looked
whether the record was there, and it passes no announcement that names its record. So a
watch that has heard everything watches a record that is there (`Aware.holds`).

A client finds the watch of a node under the key of the node (`Watching.held`); whoever
asks for a watch gets one that runs unless the listener is called at once (`watch_cases`). -/
namespace RemoteCall.Registry

/-! ### Tasks -/

namespace TaskSet
variable {σ : Type} {t : TaskSet σ} {id other : TaskId} {p : Phase σ} {state : σ} {key : String}

theorem runs_of_phase? (h : t.phase? id = some (.running state)) : t.runs id = true := by
  rw [runs, h]
  rfl

theorem phase?_of_runs (h : t.runs id = true) : ∃ state, t.phase? id = some (.running state) := by
  unfold runs at h
  split at h
  · next p hp =>
    cases p with
    | running state => exact ⟨state, hp⟩
    | finished => cases h
    | aborted => cases h
  · cases h

theorem lt_of_phase? (h : t.phase? id = some p) : id < t.tasks.length :=
  (List.getElem?_eq_some_iff.1 h).1

theorem phase?_setPhase_self (h : id < t.tasks.length) (p : Phase σ) :
    (t.setPhase id p).phase? id = some p :=
  List.getElem?_set_self h

theorem phase?_setPhase_of_ne (h : other ≠ id) (p : Phase σ) :
    (t.setPhase id p).phase? other = t.phase? other :=
  List.getElem?_set_ne h.symm

theorem update_of_phase? (h : t.phase? id = some (.running state)) (state' : σ) :
    t.update id state' = t.setPhase id (.running state') := by
  rw [update, runs_of_phase? h, if_pos rfl]

theorem finish_of_phase? (h : t.phase? id = some (.running state)) :
    t.finish id = t.setPhase id .finished := by
  rw [finish, runs_of_phase? h, if_pos rfl]

theorem mem_active (h : t.phase? id = some (.running state)) : (id, state) ∈ t.active := by
  refine List.mem_filterMap.2 ⟨(.running state, id), ?_, rfl⟩
  exact List.mk_mem_zipIdx_iff_getElem?.2 h

theorem phase?_of_isRunning (h : t.isRunning key = true) :
    ∃ id state, (key, id) ∈ t.held ∧ t.phase? id = some (.running state) := by
  unfold isRunning at h
  split at h
  · next id hid =>
    obtain ⟨state, hstate⟩ := phase?_of_runs h
    exact ⟨id, state, Dict.mem_of_find? hid, hstate⟩
  · cases h

/-! Starting a task leaves all others alone. -/

theorem phase?_spawn_of_some (h : t.phase? id = some p) (key : String) (state : σ) :
    (t.spawnIfAbsent key state).2.phase? id = some p := by
  unfold spawnIfAbsent
  dsimp only
  split
  · exact h
  · exact (List.getElem?_append_left (lt_of_phase? h)).trans h

theorem phase?_spawn (h : (t.spawnIfAbsent key state).2.phase? id = some p) :
    t.phase? id = some p ∨ id = t.tasks.length ∧ p = .running state := by
  unfold spawnIfAbsent at h
  dsimp only at h
  split at h
  · exact .inl h
  · by_cases hid : id < t.tasks.length
    · exact .inl ((List.getElem?_append_left hid).symm.trans h)
    · have hlast := lt_of_phase? h
      rw [List.length_append, List.length_singleton] at hlast
      obtain rfl : id = t.tasks.length :=
        Nat.le_antisymm (Nat.le_of_lt_succ hlast) (Nat.le_of_not_lt hid)
      exact .inr ⟨rfl, (Option.some.inj (List.getElem?_concat_length.symm.trans h)).symm⟩

/-! A task goes on, or comes to its end. -/

theorem phase?_update {state' : σ} (hphase : t.phase? id = some (.running state)) {other : TaskId}
    {p : Phase σ} (h : (t.update id state').phase? other = some p) :
    t.phase? other = some p ∨ other = id ∧ p = .running state' := by
  rw [update_of_phase? hphase] at h
  by_cases hother : other = id
  · subst hother
    rw [phase?_setPhase_self (lt_of_phase? hphase)] at h
    exact .inr ⟨rfl, (Option.some.inj h).symm⟩
  · rw [phase?_setPhase_of_ne hother] at h
    exact .inl h

theorem phase?_finish {state' : σ} (hphase : t.phase? id = some (.running state)) {other : TaskId}
    (h : (t.finish id).phase? other = some (.running state')) :
    t.phase? other = some (.running state') := by
  rw [finish_of_phase? hphase] at h
  by_cases hother : other = id
  · subst hother
    rw [phase?_setPhase_self (lt_of_phase? hphase)] at h
    cases h
  · rwa [phase?_setPhase_of_ne hother] at h

/-- After a task was to be started under a key, one runs. -/
theorem spawn_runs (t : TaskSet σ) (key : String) (state : σ) :
    (∃ id state', (key, id) ∈ t.held ∧ t.phase? id = some (.running state')) ∨
      (t.spawnIfAbsent key state).2.phase? t.tasks.length = some (.running state) := by
  unfold spawnIfAbsent
  dsimp only
  split
  · next h =>
    obtain ⟨id, state', hheld, hphase⟩ := phase?_of_isRunning h
    exact .inl ⟨id, state', (List.mem_filter.1 hheld).1, hphase⟩
  · exact .inr List.getElem?_concat_length

end TaskSet

/-! ### One watch -/

namespace Watch
variable {s t : Store} {w v : Watch}

/-- Whether the record is there, or its end among the announcements to come. -/
structure Aware (w : Watch) (s : Store) : Prop where
  heard : w.heard ≤ s.events.length
  pending : s.Holds (recordKey w.node) ∨ ∃ e ∈ s.events.drop w.heard, e.key = recordKey w.node

theorem Aware.mono (h : w.Aware s) {news : List Event} (hst : s.Announces t news) : w.Aware t := by
  obtain ⟨hheard, hpending⟩ := h
  refine ⟨?_, ?_⟩
  · rw [hst.events, List.length_append]
    exact Nat.le_add_right_of_le hheard
  · rw [hst.events, List.drop_append_of_le_length hheard]
    rcases hpending with hholds | ⟨e, he, hkey⟩
    · exact (hst.kept _ hholds).imp_right fun ⟨e, he, hkey⟩ =>
        ⟨e, List.mem_append_right _ he, hkey⟩
    · exact .inr ⟨e, List.mem_append_left _ he, hkey⟩

theorem Aware.step (h : w.Aware s) (hstep : w.step s.events = .listen v) :
    v.Aware s ∧ v.node = w.node ∧ v.listener = w.listener := by
  unfold Watch.step at hstep
  split at hstep
  · cases hstep
  · split at hstep
    · cases hstep
    · next e he =>
      split at hstep
      · cases hstep
      · next hkey =>
        obtain rfl := Next.listen.inj hstep
        obtain ⟨hlt, hget⟩ := List.getElem?_eq_some_iff.1 he
        refine ⟨⟨hlt, h.pending.imp_right ?_⟩, rfl, rfl⟩
        rintro ⟨e', he', hkey'⟩
        rw [List.drop_eq_getElem_cons hlt, hget] at he'
        rcases List.mem_cons.1 he' with rfl | he'
        · exact absurd hkey' hkey
        · exact ⟨e', he', hkey'⟩

/-- A watch that is not over has passed nothing that concerns it. -/
theorem Aware.listenAll (h : w.Aware s) {count : Nat}
    (hlisten : w.listenAll s.events count = .listen v) :
    v.Aware s ∧ v.node = w.node ∧ v.listener = w.listener := by
  induction count generalizing w with
  | zero =>
    obtain rfl := Next.listen.inj hlisten
    exact ⟨h, rfl, rfl⟩
  | succ count ih =>
    rw [Watch.listenAll] at hlisten
    split at hlisten
    · obtain rfl := Next.listen.inj hlisten
      exact ⟨h, rfl, rfl⟩
    · cases hlisten
    · next u hu =>
      obtain ⟨hu, hnode, hlistener⟩ := h.step hu
      obtain ⟨hv, hnode', hlistener'⟩ := ih hu hlisten
      exact ⟨hv, hnode'.trans hnode, hlistener'.trans hlistener⟩

/-- **A watch that has nothing left to hear watches a record that is there.** -/
theorem Aware.holds (h : w.Aware s) (hwait : w.step s.events = .wait) :
    s.Holds (recordKey w.node) := by
  unfold Watch.step at hwait
  split at hwait
  · cases hwait
  · split at hwait
    · next hnone =>
      refine h.pending.resolve_right ?_
      rintro ⟨e, he, -⟩
      rw [List.drop_eq_nil_of_le (List.getElem?_eq_none_iff.1 hnone)] at he
      cases he
    · split at hwait <;> cases hwait

end Watch

/-! ### To ask for a watch -/

theorem Store.get_some {s t : Store} {now : Nat} {key value : String}
    (h : s.get now key = (.ok (some value), t)) : t = s ∧ s.Holds key := by
  unfold Store.get Store.online at h
  split at h
  · split at h
    · next e he =>
      split at h
      · exact ⟨(congrArg Prod.snd h).symm, e, he⟩
      · cases congrArg Prod.fst h
    · cases congrArg Prod.fst h
  · cases congrArg Prod.fst h

namespace Client
variable {c : Client} {s : Store} {now : Nat} {node : String}

/-- All that can come of asking for a watch: nothing if one runs, an error, a call of the
listener at once, or a new watch. -/
theorem watch_cases (c : Client) (s : Store) (now : Nat) (node : String) (listener : Listener) :
    ∃ t, (c.tasks.isRunning (watchTask node) = true ∧ t = s ∧
        c.watch s now node listener = (.ok none, t, c)) ∨
      (∃ e, c.watch s now node listener = (.error e, t, c)) ∨
      c.watch s now node listener = (.ok (some ⟨listener, node⟩), t, c) ∨
      (s.Holds (recordKey node) ∧ t = s ∧ c.watch s now node listener = (.ok none, t, { c with
        tasks := (c.tasks.spawnIfAbsent (watchTask node)
          (.watch ⟨node, listener, s.events.length⟩)).2 })) := by
  unfold watch
  split
  · next hruns => exact ⟨s, .inl ⟨hruns, rfl, rfl⟩⟩
  · dsimp only
    split
    · next e t hget => exact ⟨t, .inr (.inl ⟨e, rfl⟩)⟩
    · next t hget => exact ⟨t, .inr (.inr (.inl rfl))⟩
    · next value t hget =>
      obtain ⟨rfl, hholds⟩ := Store.get_some hget
      exact ⟨t, .inr (.inr (.inr ⟨hholds, rfl, rfl⟩))⟩

end Client
end RemoteCall.Registry
