import RemoteCall.Proofs.Registry.Tasks

/-! What a set of tasks holds.

A set only holds on to its tasks; they run and end by themselves, also amid a use of the set that is
made in steps: a start first lets go of what has finished and then looks at the key (`spawnAmid`),
and all tasks are stopped one after another (`abortAmid`). If none ends meanwhile, these are the uses
as they stand beside the set (`spawnAmid_nil`, `abortAmid_nil`).

Next to the set there is the roll of the keys under which its tasks were started (`Roll`). Whatever
is done, every task that is held is held under its own key and was not stopped, and every task that
runs is held (`Sound.step`). So there is no task that the set cannot stop, and no two run under one
key (`holds_what_runs`). -/
namespace RemoteCall.Registry.TaskSet

variable {σ : Type} {t : TaskSet σ} {id other : TaskId} {key : String} {state : σ}

/-! ### Ends of tasks -/

/-- Whether a task came to its end by itself. -/
def hasFinished (t : TaskSet σ) (id : TaskId) : Bool :=
  match t.phase? id with
  | some .finished => true
  | _ => false

theorem stop_eq_change (t : TaskSet σ) (id : TaskId) : t.stop id = t.change id .aborted := rfl

theorem phase?_stop_self (h : t.runs id = true) : (t.stop id).phase? id = some .aborted := by
  rw [stop_eq_change, phase?_change, if_pos ⟨rfl, h⟩]

theorem phase?_stop_of_ne (h : other ≠ id) : (t.stop id).phase? other = t.phase? other := by
  rw [stop_eq_change, phase?_change, if_neg fun hand => h hand.1]

/-- What was stopped stays so. -/
theorem phase?_stop_of_aborted (h : t.phase? other = some .aborted) (id : TaskId) :
    (t.stop id).phase? other = some .aborted := by
  rw [stop_eq_change, phase?_change]
  split
  · rfl
  · exact h

theorem phase?_abort_self (h : t.held.find? key = some id) (hruns : t.runs id = true) :
    (t.abort key).2.phase? id = some .aborted := by
  rw [abort_of_find? h]
  exact phase?_stop_self hruns

theorem phase?_abort_of_ne (h : t.held.find? key ≠ some id) :
    (t.abort key).2.phase? id = t.phase? id := by
  cases hkey : t.held.find? key with
  | none => rw [abort_of_none hkey]
  | some held =>
    rw [abort_of_find? hkey]
    exact phase?_stop_of_ne fun heq => h (heq ▸ hkey)

theorem phase?_abort_of_aborted (h : t.phase? id = some .aborted) (key : String) :
    (t.abort key).2.phase? id = some .aborted := by
  cases hkey : t.held.find? key with
  | none => rwa [abort_of_none hkey]
  | some held =>
    rw [abort_of_find? hkey]
    exact phase?_stop_of_aborted h held

/-! ### Uses of a set -/

/-- Starts a task under a key unless one runs there; says whether. -/
def enter (t : TaskSet σ) (key : String) (state : σ) : Bool × TaskSet σ :=
  if t.isRunning key then (false, t) else (true, t.start key state)

/-- Starts a task unless one runs under the key, where some tasks end after the set has let go of
what had finished, and before it looks at the key. -/
def spawnAmid (t : TaskSet σ) (ends : List TaskId) (key : String) (state : σ) :
    Bool × TaskSet σ :=
  (ends.foldl finish t.prune.2).enter key state

theorem spawnAmid_nil (t : TaskSet σ) (key : String) (state : σ) :
    t.spawnAmid [] key state = t.spawnIfAbsent key state := rfl

/-- Stops the task under a key, before which some tasks end. -/
def abortBehind (ends : String → List TaskId) (t : TaskSet σ) (key : String) : TaskSet σ :=
  (((ends key).foldl finish t).abort key).2

/-- Stops all tasks one after another, where some tasks end before it is the turn of a key. -/
def abortAmid (t : TaskSet σ) (ends : String → List TaskId) : TaskSet σ :=
  t.held.keys.foldl (abortBehind ends) t

theorem abortAmid_nil (t : TaskSet σ) : t.abortAmid (fun _ => []) = t.abortAll := rfl

/-! ### All tasks are stopped -/

theorem runs_congr {t' : TaskSet σ} (h : t'.phase? id = t.phase? id) : t'.runs id = t.runs id := by
  rw [runs, runs, h]

theorem held_ends (t : TaskSet σ) (ends : List TaskId) : (ends.foldl finish t).held = t.held := by
  induction ends generalizing t with
  | nil => rfl
  | cons first rest ih => exact (ih _).trans (held_change t first .finished)

theorem phase?_ends (t : TaskSet σ) {ends : List TaskId} (h : id ∉ ends) :
    (ends.foldl finish t).phase? id = t.phase? id := by
  induction ends generalizing t with
  | nil => rfl
  | cons first rest ih =>
    refine (ih _ (List.not_mem_of_not_mem_cons h)).trans ?_
    rw [finish_eq_change, phase?_change, if_neg fun hand => List.ne_of_not_mem_cons h hand.1]

section Behind
variable {ends : String → List TaskId} {keys : List String}

theorem phase?_aborts_of_aborted (keys : List String) (hends : ∀ key, id ∉ ends key)
    (h : t.phase? id = some .aborted) :
    (keys.foldl (abortBehind ends) t).phase? id = some .aborted := by
  induction keys generalizing t with
  | nil => exact h
  | cons first rest ih =>
    exact ih (phase?_abort_of_aborted ((phase?_ends t (hends first)).trans h) first)

/-- The tasks under some keys are stopped one after another, but for those that end before. -/
theorem phase?_aborts (hends : ∀ key, id ∉ ends key) (hmem : key ∈ keys)
    (h : t.held.find? key = some id) (hruns : t.runs id = true) :
    (keys.foldl (abortBehind ends) t).phase? id = some .aborted := by
  induction keys generalizing t with
  | nil => cases hmem
  | cons first rest ih =>
    have hheld := held_ends t (ends first)
    have hphase := phase?_ends t (hends first)
    by_cases hfirst : ((ends first).foldl finish t).held.find? first = some id
    · exact phase?_aborts_of_aborted rest hends
        (phase?_abort_self hfirst ((runs_congr hphase).trans hruns))
    · have hne : key ≠ first := fun heq => hfirst (by rw [hheld, ← heq, h])
      refine ih ((List.mem_cons.1 hmem).resolve_left hne) ?_ ?_
      · rw [abortBehind, find?_abort, if_neg hne, hheld, h]
      · exact (runs_congr ((phase?_abort_of_ne hfirst).trans hphase)).trans hruns

end Behind

theorem phase?_abortAmid {ends : String → List TaskId} (hends : ∀ key, id ∉ ends key)
    (h : t.held.find? key = some id) (hruns : t.runs id = true) :
    (t.abortAmid ends).phase? id = some .aborted :=
  phase?_aborts hends (List.mem_map_of_mem (Dict.mem_of_find? h)) h hruns

theorem phase?_stops_of_aborted (ids : List TaskId) (h : t.phase? id = some .aborted) :
    (ids.foldl stop t).phase? id = some .aborted := by
  induction ids generalizing t with
  | nil => exact h
  | cons first rest ih => exact ih (phase?_stop_of_aborted h first)

theorem phase?_stops {ids : List TaskId} (hmem : id ∈ ids) (hruns : t.runs id = true) :
    (ids.foldl stop t).phase? id = some .aborted := by
  induction ids generalizing t with
  | nil => cases hmem
  | cons first rest ih =>
    by_cases hfirst : id = first
    · exact phase?_stops_of_aborted rest (hfirst ▸ phase?_stop_self hruns)
    · refine ih ((List.mem_cons.1 hmem).resolve_left hfirst) ?_
      rw [runs_congr (phase?_stop_of_ne hfirst), hruns]

theorem phase?_discard (h : t.held.find? key = some id) (hruns : t.runs id = true) :
    t.discard.phase? id = some .aborted :=
  phase?_stops (List.mem_map_of_mem (Dict.mem_of_find? h)) hruns

/-! ### Uses in a row -/

/-- A use of the set, or what a task does by itself. -/
inductive Act (σ : Type) where
  | spawn (key : String) (state : σ) (ends : List TaskId)
  | abort (key : String)
  | abortAll (ends : String → List TaskId)
  | prune
  | finish (id : TaskId)
  | update (id : TaskId) (state : σ)

/-- A set, and under which key each task on record was started. -/
structure Roll (σ : Type) where
  set : TaskSet σ := {}
  keys : List String := []

namespace Roll

/-- The roll with a key on it if a task was started under it. -/
def entered (r : Roll σ) (key : String) : Bool × TaskSet σ → Roll σ
  | (true, t) => ⟨t, r.keys ++ [key]⟩
  | (false, t) => ⟨t, r.keys⟩

def step (r : Roll σ) : Act σ → Roll σ
  | .spawn key state ends => r.entered key (r.set.spawnAmid ends key state)
  | .abort key => { r with set := (r.set.abort key).2 }
  | .abortAll ends => { r with set := r.set.abortAmid ends }
  | .prune => { r with set := r.set.prune.2 }
  | .finish id => { r with set := r.set.finish id }
  | .update id state => { r with set := r.set.update id state }

def run (r : Roll σ) : List (Act σ) → Roll σ
  | [] => r
  | act :: rest => (r.step act).run rest

/-! ### What is always so -/

/-- What is always so of a set and its roll. -/
structure Sound (r : Roll σ) : Prop where
  tidy : r.set.Tidy
  length : r.keys.length = r.set.tasks.length
  own : ∀ key id, r.set.held.find? key = some id → r.keys[id]? = some key
  whole : ∀ key id, r.set.held.find? key = some id → r.set.phase? id ≠ some .aborted

variable {r : Roll σ}

theorem sound_empty : ({} : Roll σ).Sound where
  tidy := tidy_empty
  length := rfl
  own _ _ h := by cases h
  whole _ _ h := by cases h

theorem Sound.prune (h : r.Sound) : Sound { r with set := r.set.prune.2 } where
  tidy := h.tidy.prune
  length := h.length
  own key id hid := h.own key id (Option.filter_eq_some_iff.1 (h.tidy.find?_prune key ▸ hid)).1
  whole key id hid := h.whole key id (Option.filter_eq_some_iff.1 (h.tidy.find?_prune key ▸ hid)).1

/-- A task goes on, or ends by itself. -/
theorem Sound.change (h : r.Sound) (id : TaskId) {p : Phase σ} (hp : p ≠ .aborted) :
    Sound { r with set := r.set.change id p } where
  tidy := h.tidy.change id p
  length := h.length.trans (length_change r.set id p).symm
  own key id' hid := h.own key id' (held_change r.set id p ▸ hid)
  whole key id' hid := by
    show (r.set.change id p).phase? id' ≠ _
    rw [phase?_change]
    split
    · exact fun heq => hp (Option.some.inj heq)
    · exact h.whole key id' (held_change r.set id p ▸ hid)

theorem Sound.ends (h : r.Sound) (ends : List TaskId) :
    Sound { r with set := ends.foldl TaskSet.finish r.set } := by
  induction ends generalizing r with
  | nil => exact h
  | cons first rest ih => exact ih (h.change first (p := .finished) nofun)

theorem Sound.start (h : r.Sound) (hruns : r.set.isRunning key = false) (state : σ) :
    Sound ⟨r.set.start key state, r.keys ++ [key]⟩ where
  tidy := h.tidy.start (at?_eq_none hruns) state
  length := by
    rw [TaskSet.start, List.length_append, List.length_append, h.length]
    rfl
  own key' id hid := by
    rw [TaskSet.start, Dict.find?_insert] at hid
    split at hid
    · next heq =>
      obtain rfl := Option.some.inj hid
      rw [heq, ← h.length]
      exact List.getElem?_concat_length
    · have hown := h.own key' id hid
      rwa [List.getElem?_append_left (List.getElem?_eq_some_iff.1 hown).1]
  whole key' id hid := by
    rw [phase?_start]
    rw [TaskSet.start, Dict.find?_insert] at hid
    split at hid
    · rw [if_pos (Option.some.inj hid).symm]
      exact fun heq => by cases heq
    · rw [if_neg (Nat.ne_of_lt (h.tidy.started key' id hid))]
      exact h.whole key' id hid

/-- Set and roll as they are when the key of a start is looked at. -/
theorem Sound.amid (h : r.Sound) (ends : List TaskId) :
    Sound ⟨ends.foldl TaskSet.finish r.set.prune.2, r.keys⟩ :=
  h.prune.ends ends

theorem Sound.spawn (h : r.Sound) (key : String) (state : σ) (ends : List TaskId) :
    (r.step (.spawn key state ends)).Sound := by
  have hamid := h.amid ends
  rw [step, spawnAmid, enter]
  split
  · exact hamid
  · next hruns => exact hamid.start (Bool.not_eq_true _ ▸ hruns) state

theorem Sound.abort (h : r.Sound) (key : String) :
    Sound { r with set := (r.set.abort key).2 } where
  tidy := h.tidy.abort key
  length := h.length.trans (length_abort r.set key).symm
  own key' id hid := h.own key' id (find?_of_abort hid).2
  whole key' id hid := by
    obtain ⟨hne, hheld⟩ := find?_of_abort hid
    rw [phase?_abort_of_ne fun hkey => hne (h.tidy.single key' key id hheld hkey)]
    exact h.whole key' id hheld

theorem Sound.abortAll (h : r.Sound) (ends : String → List TaskId) :
    (r.step (.abortAll ends)).Sound := by
  have hfold (keys : List String) {t : TaskSet σ} (h : Sound ⟨t, r.keys⟩) :
      Sound ⟨keys.foldl (abortBehind ends) t, r.keys⟩ := by
    induction keys generalizing t with
    | nil => exact h
    | cons key rest ih => exact ih ((h.ends (ends key)).abort key)
  exact hfold _ h

theorem Sound.step (h : r.Sound) (act : Act σ) : (r.step act).Sound := by
  cases act with
  | spawn key state ends => exact h.spawn key state ends
  | abort key => exact h.abort key
  | abortAll ends => exact h.abortAll ends
  | prune => exact h.prune
  | finish id => exact h.change id nofun
  | update id state => exact h.change id nofun

theorem Sound.run (h : r.Sound) (acts : List (Act σ)) : (r.run acts).Sound := by
  induction acts generalizing r with
  | nil => exact h
  | cons act rest ih => exact ih (h.step act)

/-! ### What a set owes -/

theorem Sound.held_of_runs (h : r.Sound) (hruns : r.set.runs id = true) :
    ∃ key, r.keys[id]? = some key ∧ r.set.held.find? key = some id := by
  rw [runs_eq_isSome] at hruns
  obtain ⟨state, hstate⟩ := Option.isSome_iff_exists.1 hruns
  obtain ⟨key, hkey⟩ := h.tidy.kept id state hstate
  exact ⟨key, h.own key id hkey, hkey⟩

/-- A task that runs is held under the key under which it was started. -/
theorem Sound.find?_of_runs (h : r.Sound) (hkey : r.keys[id]? = some key)
    (hruns : r.set.runs id = true) : r.set.held.find? key = some id := by
  obtain ⟨key', hkey', hheld⟩ := h.held_of_runs hruns
  obtain rfl := Option.some.inj (hkey.symm.trans hkey')
  exact hheld

theorem Sound.isRunning_eq_false (h : r.Sound) (key : String) :
    r.set.isRunning key = false ↔ ∀ id, r.keys[id]? = some key → r.set.runs id = false := by
  constructor
  · intro hnot id hkey
    refine Bool.eq_false_iff.2 fun hruns => ?_
    rw [isRunning, h.find?_of_runs hkey hruns] at hnot
    exact Bool.false_ne_true (hnot.symm.trans hruns)
  · intro hnone
    rw [isRunning]
    split
    · next id hid => exact hnone id (h.own key id hid)
    · rfl

/-- A task that is held runs, or it came to its end by itself. -/
theorem Sound.runs_eq (h : r.Sound) (hheld : r.set.held.find? key = some id) :
    r.set.runs id = !r.set.hasFinished id := by
  have hwhole := h.whole key id hheld
  have hstarted : id < r.set.tasks.length := h.tidy.started key id hheld
  obtain ⟨p, hp⟩ : ∃ p, r.set.phase? id = some p := ⟨_, List.getElem?_eq_getElem hstarted⟩
  rw [hp] at hwhole
  rw [runs, hasFinished, hp]
  cases p with
  | running state => rfl
  | finished => rfl
  | aborted => exact absurd rfl hwhole

theorem Sound.find?_prune_iff (h : r.Sound) (key : String) (id : TaskId) :
    r.set.prune.2.held.find? key = some id ↔
      r.set.held.find? key = some id ∧ r.set.hasFinished id = false := by
  rw [h.tidy.find?_prune, Option.filter_eq_some_iff]
  refine and_congr_right fun hheld => ?_
  rw [h.runs_eq hheld, Bool.not_eq_true']

theorem Sound.fst_prune (h : r.Sound) :
    r.set.prune.1 = r.set.held.countP fun (_, id) => r.set.hasFinished id := by
  have hall := List.length_eq_countP_add_countP (fun (_, id) => r.set.hasFinished id)
    (l := r.set.held)
  have hruns : r.set.held.countP (fun (_, id) => r.set.runs id) =
      r.set.held.countP fun e => decide ¬r.set.hasFinished e.2 = true :=
    List.countP_congr fun (key, id) hmem => by
      simp [h.runs_eq (h.tidy.sorted.find?_of_mem hmem)]
  show r.set.held.length - (r.set.held.filter fun (_, id) => r.set.runs id).length = _
  rw [← List.countP_eq_length_filter, hruns, hall]
  exact Nat.add_sub_cancel ..

/-- What had finished before a start is not held behind it. -/
theorem Sound.swept (h : r.Sound) (key : String) (state : σ) (ends : List TaskId) {key' : String}
    (hid : (r.set.spawnAmid ends key state).2.held.find? key' = some id) :
    r.set.hasFinished id = false := by
  have hheld (hid : (ends.foldl TaskSet.finish r.set.prune.2).held.find? key' = some id) :
      r.set.hasFinished id = false := by
    rw [held_ends] at hid
    exact ((h.find?_prune_iff key' id).1 hid).2
  rw [spawnAmid, enter] at hid
  split at hid
  · exact hheld hid
  · rw [TaskSet.start, Dict.find?_insert] at hid
    split at hid
    · have hlength := (h.amid ends).length.symm.trans h.length
      obtain rfl := Option.some.inj hid
      rw [hasFinished, phase?, List.getElem?_eq_none (Nat.le_of_eq hlength.symm)]
    · exact hheld hid

/-- What a set owes to those who use it, whenever they do. -/
structure Dependable (r : Roll σ) : Prop where
  /-- No two tasks run that were started under one key. -/
  single : ∀ key id id', r.keys[id]? = some key → r.keys[id']? = some key →
    r.set.runs id = true → r.set.runs id' = true → id = id'
  /-- A task that runs is held under its key; so it is stopped when its key is aborted, when all
  are, whatever else ends meanwhile, and when the set goes away. -/
  reached : ∀ id, r.set.runs id = true → ∃ key, r.keys[id]? = some key ∧
    r.set.held.find? key = some id ∧ (r.set.abort key).2.phase? id = some .aborted ∧
    (∀ ends : String → List TaskId, (∀ key, id ∉ ends key) →
      (r.set.abortAmid ends).phase? id = some .aborted) ∧
    r.set.discard.phase? id = some .aborted
  /-- A task is started exactly if none runs under the key when the key is looked at. -/
  started : ∀ key state ends,
    let before := ends.foldl TaskSet.finish r.set.prune.2
    let (started, after) := r.set.spawnAmid ends key state
    (started = true ↔ ∀ id, r.keys[id]? = some key → before.runs id = false) ∧
      (started = true → after.tasks = before.tasks ++ [.running state] ∧ ∀ key',
        after.held.find? key' =
          if key' = key then some before.tasks.length else before.held.find? key') ∧
      (started = false → after = before)
  /-- What had finished before a start is not held behind it. -/
  swept : ∀ key state ends key' id,
    (r.set.spawnAmid ends key state).2.held.find? key' = some id → r.set.hasFinished id = false
  /-- To prune is to let go of what has finished, and to count it. -/
  pruned : r.set.prune.2.tasks = r.set.tasks ∧
    r.set.prune.1 = r.set.held.countP (fun (_, id) => r.set.hasFinished id) ∧
    ∀ key id, r.set.prune.2.held.find? key = some id ↔
      r.set.held.find? key = some id ∧ r.set.hasFinished id = false
  /-- To abort one key is of no consequence for the others. -/
  apart : ∀ key key', key' ≠ key →
    (r.set.abort key).2.held.find? key' = r.set.held.find? key' ∧
      ∀ id, r.keys[id]? = some key' → (r.set.abort key).2.phase? id = r.set.phase? id

/-- **A set of tasks loses none and doubles none**, in whatever order it is used and whenever the
tasks end, be it amid a use. -/
theorem holds_what_runs (acts : List (Act σ)) : (run {} acts).Dependable := by
  have h : (run ({} : Roll σ) acts).Sound := sound_empty.run acts
  generalize run {} acts = r at h
  refine ⟨fun key id id' hkey hkey' hruns hruns' => ?_, fun id hruns => ?_,
    fun key state ends => ?_, fun key state ends key' id => h.swept key state ends,
    ⟨rfl, h.fst_prune, h.find?_prune_iff⟩, fun key key' hne => ?_⟩
  · have hheld := h.find?_of_runs hkey hruns
    exact Option.some.inj (hheld.symm.trans (h.find?_of_runs hkey' hruns'))
  · obtain ⟨key, hkey, hheld⟩ := h.held_of_runs hruns
    exact ⟨key, hkey, hheld, phase?_abort_self hheld hruns,
      fun _ hends => phase?_abortAmid hends hheld hruns, phase?_discard hheld hruns⟩
  · intro before
    have hspawn : r.set.spawnAmid ends key state = before.enter key state := rfl
    rw [← (h.amid ends).isRunning_eq_false, hspawn, enter]
    cases before.isRunning key with
    | true => exact ⟨⟨nofun, nofun⟩, nofun, fun _ => rfl⟩
    | false =>
      have hfind := Dict.find?_insert key before.tasks.length before.held
      exact ⟨⟨fun _ => rfl, fun _ => rfl⟩, fun _ => ⟨rfl, hfind⟩, nofun⟩
  · refine ⟨?_, fun id hkey' => phase?_abort_of_ne fun hheld => hne ?_⟩
    · rw [find?_abort, if_neg hne]
    · exact Option.some.inj (hkey'.symm.trans (h.own key id hheld))

end Roll
end RemoteCall.Registry.TaskSet
