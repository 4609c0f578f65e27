import RemoteCall.Proofs.Registry.Watches

/-! Tasks by their keys.

The place of a task in the record depends on everything that was started before it, so two
histories of the same client can be compared only by the keys under which tasks are held. That
loses nothing in a set that is `Tidy`: it holds every task that runs, each under one key. Every
use of a set keeps it tidy, and for each there is a law of what it does to the states of the
running tasks by key (`at?`). -/
namespace RemoteCall.Registry

def Phase.state? {σ : Type} : Phase σ → Option σ
  | running state => some state
  | _ => none

namespace TaskSet
variable {σ : Type} {t : TaskSet σ} {id other : TaskId} {key : String} {state : σ}

/-- The state of a task that runs. -/
def state? (t : TaskSet σ) (id : TaskId) : Option σ := (t.phase? id).bind Phase.state?

/-- The state of the task that runs under a key. -/
def at? (t : TaskSet σ) (key : String) : Option σ := (t.held.find? key).bind t.state?

/-- Whether a set holds every task that runs, each under one key. -/
structure Tidy (t : TaskSet σ) : Prop where
  sorted : t.held.Sorted
  started : ∀ key id, t.held.find? key = some id → id < t.tasks.length
  single : ∀ key key' id, t.held.find? key = some id → t.held.find? key' = some id → key = key'
  kept : ∀ id state, t.state? id = some state → ∃ key, t.held.find? key = some id

theorem tidy_empty : ({} : TaskSet σ).Tidy where
  sorted := Dict.sorted_nil
  started _ _ h := by cases h
  single _ _ _ h := by cases h
  kept _ _ h := by cases h

/-! ### States -/

theorem phase?_of_state? (h : t.state? id = some state) : t.phase? id = some (.running state) := by
  obtain ⟨p, hp, hstate⟩ := Option.bind_eq_some_iff.1 h
  cases p with
  | running s =>
    obtain rfl := Option.some.inj hstate
    exact hp
  | finished => cases hstate
  | aborted => cases hstate

theorem runs_eq_isSome (t : TaskSet σ) (id : TaskId) : t.runs id = (t.state? id).isSome := by
  unfold runs state?
  cases t.phase? id with
  | none => rfl
  | some p => cases p <;> rfl

theorem isRunning_eq_isSome (t : TaskSet σ) (key : String) :
    t.isRunning key = (t.at? key).isSome := by
  unfold isRunning at?
  cases t.held.find? key with
  | none => rfl
  | some id => exact runs_eq_isSome t id

theorem at?_eq_none (h : t.isRunning key = false) : t.at? key = none := by
  rwa [isRunning_eq_isSome, Option.isSome_eq_false_iff, Option.isNone_iff_eq_none] at h

theorem at?_of_find? (h : t.held.find? key = some id) : t.at? key = t.state? id := by
  rw [at?, h]
  rfl

/-- What becomes of a task if it runs. -/
def change (t : TaskSet σ) (id : TaskId) (p : Phase σ) : TaskSet σ :=
  if t.runs id then t.setPhase id p else t

theorem update_eq_change (t : TaskSet σ) (id : TaskId) (state : σ) :
    t.update id state = t.change id (.running state) := rfl

theorem finish_eq_change (t : TaskSet σ) (id : TaskId) : t.finish id = t.change id .finished := rfl

@[simp] theorem held_change (t : TaskSet σ) (id : TaskId) (p : Phase σ) :
    (t.change id p).held = t.held := by
  unfold change
  split <;> rfl

@[simp] theorem length_change (t : TaskSet σ) (id : TaskId) (p : Phase σ) :
    (t.change id p).tasks.length = t.tasks.length := by
  unfold change
  split
  · exact List.length_set
  · rfl

theorem phase?_change (t : TaskSet σ) (id other : TaskId) (p : Phase σ) :
    (t.change id p).phase? other =
      if other = id ∧ t.runs other = true then some p else t.phase? other := by
  unfold change
  by_cases hruns : t.runs id = true
  · obtain ⟨state, hphase⟩ := phase?_of_runs hruns
    rw [if_pos hruns]
    by_cases heq : other = id
    · subst heq
      rw [phase?_setPhase_self (lt_of_phase? hphase), if_pos ⟨rfl, hruns⟩]
    · rw [phase?_setPhase_of_ne heq, if_neg fun hand => heq hand.1]
  · rw [if_neg hruns, if_neg]
    rintro ⟨rfl, hother⟩
    exact hruns hother

theorem state?_change (t : TaskSet σ) (id other : TaskId) (p : Phase σ) :
    (t.change id p).state? other =
      if other = id then (t.state? id).bind fun _ => p.state? else t.state? other := by
  rw [state?, phase?_change, runs_eq_isSome]
  by_cases heq : other = id
  · subst heq
    cases h : t.state? other with
    | none =>
      rw [if_neg fun hand => Bool.false_ne_true hand.2, if_pos rfl]
      exact h
    | some before =>
      rw [if_pos ⟨rfl, rfl⟩, if_pos rfl]
      rfl
  · rw [if_neg fun hand => heq hand.1, if_neg heq, state?]

theorem Tidy.change (h : t.Tidy) (id : TaskId) (p : Phase σ) : (t.change id p).Tidy where
  sorted := by rw [held_change]; exact h.sorted
  started key other hother := by
    rw [held_change] at hother
    rw [length_change]
    exact h.started key other hother
  single key key' other hother hother' := by
    rw [held_change] at hother hother'
    exact h.single key key' other hother hother'
  kept other state hstate := by
    rw [held_change]
    rw [state?_change] at hstate
    split at hstate
    · next heq =>
      obtain ⟨before, hbefore, -⟩ := Option.bind_eq_some_iff.1 hstate
      exact heq ▸ h.kept id before hbefore
    · exact h.kept other state hstate

/-- A task that is changed is the one under its key, and no other. -/
theorem Tidy.at?_change (h : t.Tidy) (hkey : t.held.find? key = some id) (p : Phase σ)
    (key' : String) :
    (t.change id p).at? key' =
      if key' = key then (t.at? key).bind fun _ => p.state? else t.at? key' := by
  rw [at?, held_change, at?_of_find? hkey]
  split
  · next heq =>
    rw [heq, hkey, Option.bind_some, state?_change, if_pos rfl]
  · next hne =>
    rw [at?]
    cases hkey' : t.held.find? key' with
    | none => rfl
    | some other =>
      rw [Option.bind_some, Option.bind_some, state?_change, if_neg]
      rintro rfl
      exact hne (h.single key' key other hkey' hkey)

/-! ### Starting -/

theorem Tidy.find?_prune (h : t.Tidy) (key : String) :
    t.prune.2.held.find? key = (t.held.find? key).filter t.runs :=
  h.sorted.find?_filter _ key

theorem Tidy.prune (h : t.Tidy) : t.prune.2.Tidy where
  sorted := h.sorted.filter _
  started key id hid := by
    rw [h.find?_prune] at hid
    exact h.started key id (Option.filter_eq_some_iff.1 hid).1
  single key key' id hid hid' := by
    rw [h.find?_prune] at hid hid'
    exact h.single key key' id (Option.filter_eq_some_iff.1 hid).1
      (Option.filter_eq_some_iff.1 hid').1
  kept id state hstate := by
    obtain ⟨key, hkey⟩ := h.kept id state hstate
    refine ⟨key, ?_⟩
    rw [h.find?_prune, hkey, Option.filter_some,
      if_pos (runs_of_phase? (t := t) (phase?_of_state? hstate))]

theorem Tidy.at?_prune (h : t.Tidy) (key : String) : t.prune.2.at? key = t.at? key := by
  rw [at?, h.find?_prune, at?]
  cases t.held.find? key with
  | none => rfl
  | some id =>
    show (Option.filter t.runs (some id)).bind t.state? = t.state? id
    rw [Option.filter_some, runs_eq_isSome]
    cases hid : t.state? id with
    | none => rfl
    | some state =>
      rw [Option.isSome_some, if_pos rfl]
      exact hid

/-- A task is put on record and held. -/
def start (t : TaskSet σ) (key : String) (state : σ) : TaskSet σ where
  held := t.held.insert key t.tasks.length
  tasks := t.tasks ++ [.running state]

theorem spawnIfAbsent_eq (t : TaskSet σ) (key : String) (state : σ) :
    t.spawnIfAbsent key state =
      if t.prune.2.isRunning key then (false, t.prune.2) else (true, t.prune.2.start key state) :=
  rfl

theorem phase?_start (t : TaskSet σ) (key : String) (state : σ) (id : TaskId) :
    (t.start key state).phase? id =
      if id = t.tasks.length then some (.running state) else t.phase? id := by
  show (t.tasks ++ [.running state])[id]? = _
  split
  · next h => rw [h, List.getElem?_concat_length]
  · next h =>
    by_cases hlt : id < t.tasks.length
    · exact List.getElem?_append_left hlt
    · have hbehind : t.tasks.length < id := Nat.lt_of_le_of_ne (Nat.le_of_not_lt hlt) (Ne.symm h)
      rw [phase?, List.getElem?_eq_none (Nat.le_of_not_lt hlt), List.getElem?_eq_none]
      rwa [List.length_append, List.length_singleton]

theorem state?_start (t : TaskSet σ) (key : String) (state : σ) (id : TaskId) :
    (t.start key state).state? id =
      if id = t.tasks.length then some state else t.state? id := by
  rw [state?, phase?_start]
  split <;> rfl

theorem Tidy.start (h : t.Tidy) (hkey : t.at? key = none) (state : σ) :
    (t.start key state).Tidy where
  sorted := h.sorted.insert _ _
  started key' id hid := by
    show id < (t.tasks ++ [Phase.running state]).length
    rw [List.length_append, List.length_singleton]
    rw [TaskSet.start, Dict.find?_insert] at hid
    split at hid
    · obtain rfl := Option.some.inj hid
      exact Nat.lt_succ_self _
    · exact Nat.lt_succ_of_lt (h.started key' id hid)
  single key₁ key₂ id h₁ h₂ := by
    rw [TaskSet.start, Dict.find?_insert] at h₁ h₂
    split at h₁
    · next heq₁ =>
      split at h₂
      · next heq₂ => rw [heq₁, heq₂]
      · obtain rfl := Option.some.inj h₁
        exact absurd (h.started key₂ _ h₂) (Nat.lt_irrefl _)
    · split at h₂
      · obtain rfl := Option.some.inj h₂
        exact absurd (h.started key₁ _ h₁) (Nat.lt_irrefl _)
      · exact h.single key₁ key₂ id h₁ h₂
  kept id state' hstate := by
    rw [state?_start] at hstate
    split at hstate
    · next heq => exact ⟨key, by rw [TaskSet.start, heq, Dict.find?_insert_self]⟩
    · obtain ⟨key', hkey'⟩ := h.kept id state' hstate
      refine ⟨key', ?_⟩
      rw [TaskSet.start, Dict.find?_insert, if_neg]
      · exact hkey'
      · rintro rfl
        rw [at?_of_find? hkey', hstate] at hkey
        cases hkey

theorem Tidy.at?_start (h : t.Tidy) (key : String) (state : σ) (key' : String) :
    (t.start key state).at? key' = if key' = key then some state else t.at? key' := by
  rw [at?, TaskSet.start, Dict.find?_insert]
  split
  · exact (state?_start t key state t.tasks.length).trans (if_pos rfl)
  · rw [at?]
    cases hid : t.held.find? key' with
    | none => rfl
    | some id =>
      refine (state?_start t key state id).trans (if_neg ?_)
      exact Nat.ne_of_lt (h.started key' id hid)

theorem Tidy.spawn (h : t.Tidy) (key : String) (state : σ) :
    (t.spawnIfAbsent key state).2.Tidy := by
  rw [spawnIfAbsent_eq]
  split
  · exact h.prune
  · next hruns => exact h.prune.start (at?_eq_none (Bool.not_eq_true _ ▸ hruns)) state

/-- After a task was to be started under a key, one runs there, and nothing else has changed. -/
theorem Tidy.at?_spawn (h : t.Tidy) (key : String) (state : σ) (key' : String) :
    (t.spawnIfAbsent key state).2.at? key' =
      if key' = key then some ((t.at? key).getD state) else t.at? key' := by
  rw [spawnIfAbsent_eq, isRunning_eq_isSome, h.at?_prune]
  cases hkey : t.at? key with
  | none =>
    rw [Option.isSome_none, if_neg Bool.false_ne_true, h.prune.at?_start, h.at?_prune]
    rfl
  | some before =>
    rw [Option.isSome_some, if_pos rfl, h.at?_prune]
    split
    · next heq => rw [heq, hkey]; rfl
    · rfl

/-! ### Stopping -/

theorem abort_of_find? (h : t.held.find? key = some id) :
    (t.abort key).2 = { t.change id .aborted with held := t.held.erase key } := by
  rw [abort, h]
  rfl

theorem abort_of_none (h : t.held.find? key = none) : (t.abort key).2 = t := by
  rw [abort, h]

theorem length_abort (t : TaskSet σ) (key : String) :
    (t.abort key).2.tasks.length = t.tasks.length := by
  cases hkey : t.held.find? key with
  | none => rw [abort_of_none hkey]
  | some held =>
    rw [abort_of_find? hkey]
    exact length_change t held .aborted

theorem find?_abort (t : TaskSet σ) (key key' : String) :
    (t.abort key).2.held.find? key' = if key' = key then none else t.held.find? key' := by
  cases hkey : t.held.find? key with
  | none =>
    rw [abort_of_none hkey]
    split
    · next heq => rw [heq, hkey]
    · rfl
  | some held =>
    rw [abort_of_find? hkey]
    exact Dict.find?_erase key t.held key'

theorem find?_of_abort {key' : String} (h : (t.abort key).2.held.find? key' = some id) :
    key' ≠ key ∧ t.held.find? key' = some id := by
  rw [find?_abort] at h
  split at h
  · cases h
  · next hne => exact ⟨hne, h⟩

theorem Tidy.abort (h : t.Tidy) (key : String) : (t.abort key).2.Tidy where
  sorted := by
    cases hid : t.held.find? key with
    | none =>
      rw [abort_of_none hid]
      exact h.sorted
    | some id =>
      rw [abort_of_find? hid]
      exact h.sorted.filter _
  started key' id hid := by
    rw [length_abort]
    exact h.started key' id (find?_of_abort hid).2
  single key₁ key₂ id h₁ h₂ :=
    h.single key₁ key₂ id (find?_of_abort h₁).2 (find?_of_abort h₂).2
  kept other state hstate := by
    cases hid : t.held.find? key with
    | none =>
      rw [abort_of_none hid] at hstate ⊢
      exact h.kept other state hstate
    | some id =>
      rw [abort_of_find? hid] at hstate
      replace hstate : (t.change id .aborted).state? other = some state := hstate
      rw [state?_change] at hstate
      split at hstate
      · obtain ⟨before, -, hnone⟩ := Option.bind_eq_some_iff.1 hstate
        cases hnone
      · next hne =>
        obtain ⟨key', hkey'⟩ := h.kept other state hstate
        refine ⟨key', ?_⟩
        rw [find?_abort, if_neg]
        · exact hkey'
        · rintro rfl
          exact hne (Option.some.inj (hkey'.symm.trans hid))

theorem Tidy.at?_abort (h : t.Tidy) (key key' : String) :
    (t.abort key).2.at? key' = if key' = key then none else t.at? key' := by
  cases hid : t.held.find? key with
  | none =>
    rw [abort_of_none hid]
    split
    · next heq => rw [heq, at?, hid]; rfl
    · rfl
  | some id =>
    rw [abort_of_find? hid]
    show ((t.held.erase key).find? key').bind (t.change id .aborted).state? = _
    rw [Dict.find?_erase]
    split
    · rfl
    · next hne =>
      have hsame := h.at?_change hid .aborted key'
      rwa [if_neg hne, at?, held_change] at hsame

theorem Tidy.abortAll (h : t.Tidy) : t.abortAll.Tidy := by
  have hfold (keys : List String) {t : TaskSet σ} (h : t.Tidy) :
      (keys.foldl (fun t key => (t.abort key).2) t).Tidy := by
    induction keys generalizing t with
    | nil => exact h
    | cons key rest ih => exact ih (h.abort key)
  exact hfold _ h

/-- Nothing runs any more. -/
theorem Tidy.at?_abortAll (h : t.Tidy) (key : String) : t.abortAll.at? key = none := by
  have hfold (keys : List String) {t : TaskSet σ} (h : t.Tidy) :
      (keys.foldl (fun t key => (t.abort key).2) t).at? key =
        if key ∈ keys then none else t.at? key := by
    induction keys generalizing t with
    | nil => simp
    | cons first rest ih =>
      rw [List.foldl_cons, ih (h.abort first), h.at?_abort]
      by_cases hrest : key ∈ rest <;> by_cases hfirst : key = first <;> simp [hrest, hfirst]
  rw [TaskSet.abortAll, hfold _ h]
  split
  · rfl
  · next hkey =>
    rw [at?]
    cases hid : t.held.find? key with
    | none => rfl
    | some id => exact absurd (List.mem_map.2 ⟨_, Dict.mem_of_find? hid, rfl⟩) hkey

/-! ### By key -/

/-- The task that is held under a key, or else one that was never started. -/
def idOf (t : TaskSet σ) (key : String) : TaskId := (t.held.find? key).getD t.tasks.length

theorem find?_of_at? (h : t.at? key = some state) : t.held.find? key = some (t.idOf key) := by
  obtain ⟨id, hid, -⟩ := Option.bind_eq_some_iff.1 h
  rw [idOf, hid]
  rfl

theorem state?_idOf (t : TaskSet σ) (key : String) : t.state? (t.idOf key) = t.at? key := by
  rw [idOf, at?]
  cases t.held.find? key with
  | none =>
    show (t.tasks[t.tasks.length]?).bind Phase.state? = none
    rw [List.getElem?_eq_none (Nat.le_refl _)]
    rfl
  | some id => rfl

/-- Every task that runs is the one under some key. -/
theorem Tidy.idOf_of_state? (h : t.Tidy) (hstate : t.state? id = some state) :
    ∃ key, t.idOf key = id := by
  obtain ⟨key, hkey⟩ := h.kept id state hstate
  exact ⟨key, by rw [idOf, hkey]; rfl⟩

theorem Tidy.at?_update (h : t.Tidy) (hstate : t.at? key = some state) (state' : σ)
    (key' : String) :
    (t.update (t.idOf key) state').at? key' = if key' = key then some state' else t.at? key' := by
  rw [update_eq_change, h.at?_change (find?_of_at? hstate), hstate]
  rfl

theorem Tidy.at?_finish (h : t.Tidy) (hstate : t.at? key = some state) (key' : String) :
    (t.finish (t.idOf key)).at? key' = if key' = key then none else t.at? key' := by
  rw [finish_eq_change, h.at?_change (find?_of_at? hstate), hstate]
  rfl

end TaskSet
end RemoteCall.Registry
