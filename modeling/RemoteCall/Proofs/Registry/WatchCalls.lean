import RemoteCall.Proofs.Registry.Removals

/-! What comes of asking for a watch.

Between two steps of the call, and after it, anybody may do anything to the store. If the record is
gone when the call looks, its listener is called at once. Otherwise the watch has listened since
before that look, so it stands (`Posted`), or it is over and its listener was called once
(`Posted.run`). Both are read off the tasks that run (`Orderly.mem_watches`). -/
namespace RemoteCall.Registry

namespace TaskSet

theorem mem_active_iff {σ : Type} {t : TaskSet σ} {id : TaskId} {state : σ} :
    (id, state) ∈ t.active ↔ t.phase? id = some (.running state) := by
  refine ⟨fun h => ?_, mem_active⟩
  obtain ⟨⟨p, other⟩, hmem, hp⟩ := List.mem_filterMap.1 h
  cases p with
  | running state' =>
    obtain ⟨rfl, rfl⟩ := Prod.mk.inj (Option.some.inj hp)
    exact List.mk_mem_zipIdx_iff_getElem?.1 hmem
  | finished => cases hp
  | aborted => cases hp

end TaskSet

namespace Sentry
variable {x y : Sentry} {node : String} {listener : Listener} {s : Store} {w : Watch}

/-- Whether a client can be in this state. -/
def Reachable (x : Sentry) : Prop :=
  ∃ (now : Nat) (store : Store) (actions : List Action), x = (new now store).run actions

theorem Reachable.orderly (h : x.Reachable) : x.Orderly := by
  obtain ⟨now, store, actions, rfl⟩ := h
  exact Orderly.run (x := new now store) Client.orderly_empty actions

theorem run_append (x : Sentry) (early late : List Action) :
    x.run (early ++ late) = (x.run early).run late := by
  induction early generalizing x with
  | nil => rfl
  | cons a rest ih => exact ih (x.step a)

/-! ### The watches that run -/

/-- A task that watches a node is the one under the key of the node. -/
theorem Orderly.post_of_active (hx : x.Orderly) {id : TaskId}
    (h : (id, .watch w) ∈ x.client.tasks.active) :
    x.post w.node = some (.watch w) ∧ x.client.tasks.idOf (Client.watchTask w.node) = id := by
  have hc : x.client.Orderly := hx
  have hjob : x.job? id = some (.watch w) := by rw [job?, TaskSet.mem_active_iff.1 h]
  obtain hnone | ⟨key, rfl⟩ := hx.picked id
  · cases hjob.symm.trans hnone
  · have hat := (x.job?_idOf key).symm.trans hjob
    obtain rfl : key = Client.watchTask w.node := hc.tasks.keyed key _ hat
    exact ⟨hat, rfl⟩

theorem active_of_post (h : x.post node = some (.watch w)) :
    ∃ id, (id, .watch w) ∈ x.client.tasks.active :=
  ⟨_, TaskSet.mem_active_iff.2 (TaskSet.phase?_of_state? ((TaskSet.state?_idOf _ _).trans h))⟩

theorem Orderly.mem_watches (hx : x.Orderly) :
    w ∈ x.watches node listener ↔ x.post node = some (.watch w) ∧ w.listener = listener := by
  constructor
  · intro h
    obtain ⟨⟨id, job⟩, hactive, hjob⟩ := List.mem_filterMap.1 h
    cases job with
    | watch v =>
      obtain ⟨⟨rfl, rfl⟩, hv⟩ := Option.ite_none_right_eq_some.1 hjob
      obtain rfl := Option.some.inj hv
      exact ⟨(hx.post_of_active hactive).1, rfl⟩
    | sweeper period next => cases hjob
    | heartbeat period next ttl => cases hjob
  · rintro ⟨hpost, hlistener⟩
    obtain ⟨id, hactive⟩ := active_of_post hpost
    obtain ⟨v, hv, hnode⟩ := Client.Orderly.watch_of_at? hx hpost
    obtain rfl := Job.watch.inj hv
    exact List.mem_filterMap.2 ⟨_, hactive, if_pos ⟨hnode, hlistener⟩⟩

theorem Orderly.watches_eq_nil (hx : x.Orderly) :
    x.watches node listener = [] ↔ Over node listener x := by
  rw [List.eq_nil_iff_forall_not_mem]
  exact forall_congr' fun w => by rw [hx.mem_watches, not_and]

theorem Posted.mem_watches (h : Posted node listener s x w) (hx : x.Orderly) :
    w ∈ x.watches node listener := hx.mem_watches.2 ⟨h.post, h.target.2⟩

/-! ### What becomes of a watch -/

/-- **A watch stands, or it is over for a reason and its listener was called once.** -/
theorem Posted.run (h : Posted node listener s x w) (hx : x.Orderly) {late : List Action}
    (hlate : ∀ a ∈ late, a.Keeps node listener) :
    (∃ v, Posted node listener s (x.run late) v ∧
      (x.run late).calls node listener = x.calls node listener) ∨
    Over node listener (x.run late) ∧
      (x.run late).calls node listener = x.calls node listener + 1 ∧
      (s.Loses (x.run late).store (recordKey node) ∨
        ∃ earlier rest, late = earlier ++ rest ∧
          ∃ v ∈ (x.run earlier).watches node listener, (x.run earlier).lags v = true) := by
  induction late generalizing x w with
  | nil => exact .inl ⟨w, h, rfl⟩
  | cons a rest ih =>
    obtain ⟨ha, hrest⟩ := List.forall_mem_cons.1 hlate
    obtain ⟨v, hv, hcalls⟩ | ⟨hover, hcalls, hcause⟩ := h.step hx ha.1
    · obtain ⟨u, hu, hsame⟩ | ⟨hover, honce, hcause⟩ := ih hv (hx.step a) hrest
      · exact .inl ⟨u, hu, hsame.trans hcalls⟩
      · refine .inr ⟨hover, honce.trans (congrArg (· + 1) hcalls), hcause.imp_right ?_⟩
        rintro ⟨earlier, rest', rfl, hlags⟩
        exact ⟨a :: earlier, rest', rfl, hlags⟩
    · -- It ended with this action, and stays so.
      obtain ⟨hrun, hsame⟩ := (over_of_none hover).run (hx.step a) hrest
      refine .inr ⟨hrun, hsame.trans hcalls, ?_⟩
      rcases hcause with hlags | hlost
      · exact .inr ⟨[], a :: rest, rfl, w, h.mem_watches hx, hlags⟩
      · exact .inl (hlost.trans (hx.becomes_run (a :: rest)))

/-- A watch that hears everything there is hears of a removal. -/
theorem Posted.fires (h : Posted node listener s x w) (hx : x.Orderly)
    (hlost : s.Loses x.store (recordKey node)) {id : TaskId} {v : Watch} {count : Nat}
    (hactive : (id, .watch v) ∈ x.client.tasks.active) (hnode : v.node = node)
    (hcount : x.store.events.length ≤ count) : (x.hear id count).post node = none := by
  have hc : x.client.Orderly := hx
  subst hnode
  obtain ⟨hpost, rfl⟩ := hx.post_of_active hactive
  obtain rfl := Job.watch.inj (Option.some.inj (h.post.symm.trans hpost))
  have hfire := Watch.listenAll_of_all hcount (h.pending hlost)
  rw [hear_idOf, Client.listen_of_watch hpost, hfire]
  exact (hc.tasks.tidy.at?_finish hpost _).trans (if_pos rfl)

theorem Posted.not_waiting (h : Posted node listener s x w)
    (hlost : s.Loses x.store (recordKey node)) : w.step x.store.events ≠ .wait := by
  obtain ⟨e, he, -⟩ := h.pending hlost
  intro hwait
  unfold Watch.step at hwait
  rw [List.getElem?_eq_getElem (Watch.lt_of_mem_drop he)] at hwait
  dsimp only at hwait
  split at hwait
  · cases hwait
  · split at hwait <;> cases hwait

/-- What comes of a watch that has listened since the store was `s` and was set up when the client
was in the state `y`, after other things have happened. -/
structure Outcome (s : Store) (node : String) (listener : Listener) (y : Sentry)
    (late : List Action) : Prop where
  /-- It runs and has not called its listener, or it has called it once and is over. -/
  once : (y.run late).calls node listener = y.calls node listener ∧
      (y.run late).watches node listener ≠ [] ∨
    (y.run late).calls node listener = y.calls node listener + 1 ∧
      (y.run late).watches node listener = []
  /-- The record is in the store all the time, or it has left it. -/
  kept : ∀ earlier rest, late = earlier ++ rest →
    (y.run earlier).store.Holds (recordKey node) ∨ s.Loses (y.run late).store (recordKey node)
  /-- The listener is called for a reason. -/
  sound : (y.run late).calls node listener = y.calls node listener + 1 →
    s.Loses (y.run late).store (recordKey node) ∨
      ∃ earlier rest, late = earlier ++ rest ∧
        ∃ w ∈ (y.run earlier).watches node listener, (y.run earlier).lags w = true
  /-- If the record has left the store, the watch hears of it when it runs, -/
  heard : s.Loses (y.run late).store (recordKey node) →
    ∀ (id : TaskId) (w : Watch) (count : Nat), (id, .watch w) ∈ (y.run late).client.tasks.active →
      w.node = node → (y.run late).store.events.length ≤ count →
      ((y.run late).hear id count).calls node listener = y.calls node listener + 1 ∧
        ((y.run late).hear id count).watches node listener = []
  /-- and it has heard of it if nothing is left to hear. -/
  complete : s.Loses (y.run late).store (recordKey node) →
    (∀ w ∈ (y.run late).watches node listener, w.step (y.run late).store.events = .wait) →
      (y.run late).calls node listener = y.calls node listener + 1
  /-- While a watch of the node runs, asking for one does nothing. -/
  barred : (y.run late).client.tasks.isRunning (Client.watchTask node) = true → ∀ other,
    (y.run late).watch node other = (.ok (), y.run late) ∧
      (WatchCall.asked node other).step (y.run late) = (.done (.ok ()), y.run late)

section Outcomes
variable (h : Posted node listener s y w) (hy : y.Orderly) {late : List Action}
  (hlate : ∀ a ∈ late, a.Keeps node listener)
include h hy hlate

theorem Posted.once :
    (y.run late).calls node listener = y.calls node listener ∧
        (y.run late).watches node listener ≠ [] ∨
      (y.run late).calls node listener = y.calls node listener + 1 ∧
        (y.run late).watches node listener = [] := by
  obtain ⟨v, hv, hcalls⟩ | ⟨hover, hcalls, -⟩ := h.run hy hlate
  · exact .inl ⟨hcalls, List.ne_nil_of_mem (hv.mem_watches (hy.run late))⟩
  · exact .inr ⟨hcalls, (hy.run late).watches_eq_nil.2 hover⟩

/-- Once it has heard everything there is, it has called its listener for what has left. -/
theorem Posted.heard_all (hlost : s.Loses (y.run late).store (recordKey node)) {id : TaskId}
    {v : Watch} {count : Nat} (hactive : (id, .watch v) ∈ (y.run late).client.tasks.active)
    (hnode : v.node = node) (hcount : (y.run late).store.events.length ≤ count) :
    ((y.run late).hear id count).calls node listener = y.calls node listener + 1 ∧
      ((y.run late).hear id count).watches node listener = [] := by
  have hz := hy.run late
  have hnext := hz.step (.hear id count)
  obtain ⟨u, hu, hcalls⟩ | ⟨hover, hcalls, -⟩ := h.run hy hlate
  · have hnone := hu.fires hz hlost hactive hnode hcount
    obtain ⟨v, hv, -⟩ | ⟨-, honce, -⟩ := hu.step hz (a := .hear id count) nofun
    · cases hnone.symm.trans hv.post
    · refine ⟨honce.trans ?_, hnext.watches_eq_nil.2 (over_of_none hnone)⟩
      rw [hcalls]
  · obtain ⟨hover', hsame⟩ := hover.step hz (a := .hear id count) ⟨nofun, nofun⟩
    exact ⟨hsame.trans hcalls, hnext.watches_eq_nil.2 hover'⟩

/-- A watch that stands has every such outcome. -/
theorem Posted.outcome
    (hheld : y.store.Holds (recordKey node) ∨ s.Loses y.store (recordKey node)) :
    Outcome s node listener y late where
  once := h.once hy hlate
  kept earlier rest heq := by
    refine or_iff_not_imp_left.2 fun hgone => ?_
    have hafter : (y.run earlier).store.Becomes (y.run late).store := by
      rw [heq, run_append]
      exact (hy.run earlier).becomes_run rest
    rcases hheld with hheld | hlost
    · exact h.since.loses_trans (((hy.becomes_run earlier).loses_of_gone hheld hgone).trans hafter)
    · exact hlost.trans (hy.becomes_run late)
  sound honce := by
    obtain ⟨v, -, hcalls⟩ | ⟨-, -, hcause⟩ := h.run hy hlate
    · omega
    · exact hcause
  heard hlost _ _ _ := h.heard_all hy hlate hlost
  complete hlost hwait := by
    obtain ⟨u, hu, -⟩ | ⟨-, hcalls, -⟩ := h.run hy hlate
    · exact absurd (hwait u (hu.mem_watches (hy.run late))) (hu.not_waiting hlost)
    · exact hcalls
  barred hruns other := ⟨watch_of_running hruns other, if_pos hruns⟩

end Outcomes

/-! ### The call -/

/-- No watch of a node runs. -/
theorem post_eq_none :
    x.post node = none ↔ x.client.tasks.isRunning (Client.watchTask node) = false := by
  rw [TaskSet.isRunning_eq_isSome, Option.isSome_eq_false_iff, Option.isNone_iff_eq_none, post]

/-- **A watch is set up** if none runs: it has listened as long as it says. -/
theorem Orderly.posted_found (hx : x.Orderly) (hpost : x.post node = none) (listener : Listener)
    (hs : s.Becomes x.store) :
    Posted node listener s
        ((WatchCall.found ⟨node, listener, s.events.length⟩).step x).2
        ⟨node, listener, s.events.length⟩ ∧
      ((WatchCall.found ⟨node, listener, s.events.length⟩).step x).2.Orderly := by
  have hc : x.client.Orderly := hx
  obtain ⟨news, hnews⟩ := hs.announces
  have hspawn := hc.spawn x.client.config (.watch ⟨node, listener, s.events.length⟩)
  refine ⟨⟨?_, ⟨rfl, rfl⟩, hs, Nat.le_refl _, ?_, fun _ he _ => he⟩, hspawn⟩
  · refine (hc.tasks.tidy.at?_spawn _ _ _).trans ((if_pos rfl).trans ?_)
    rw [show x.client.tasks.at? (Client.watchTask node) = none from hpost]
    rfl
  · show s.events.length ≤ x.store.events.length
    rw [hnews.events, List.length_append]
    exact Nat.le_add_right _ _

/-- Up to the look nothing is found out but that no watch of the node runs. -/
theorem course_of_vacant {began look : Sentry} {c₁ c₂ : WatchCall} {first second : List Action}
    (hvacant : x.client.tasks.isRunning (Client.watchTask node) = false)
    (hbegan : (WatchCall.asked node listener).run x [first] = (c₁, began))
    (hlook : c₁.run began [second] = (c₂, look)) :
    began = x.run first ∧ c₂ = .listening ⟨node, listener, began.store.events.length⟩ ∧
      look = began.run second := by
  have hidle : (WatchCall.asked node listener).step x = (.vacant node listener, x) :=
    if_neg (Bool.eq_false_iff.1 hvacant)
  rw [WatchCall.run, hidle] at hbegan
  obtain ⟨rfl, rfl⟩ := Prod.mk.inj hbegan
  obtain ⟨rfl, rfl⟩ := Prod.mk.inj hlook
  exact ⟨rfl, rfl, rfl⟩

section Look
variable {c : WatchCall} {third : List Action} (hx : x.Orderly) (hpost : x.post node = none)
  (honline : x.store.available = true) (hspared : ∀ a ∈ third, a.Spares node)
include hx hpost honline hspared

/-- **If the record is gone at the look, the listener is called**, and no watch is set up. -/
theorem course_of_gone (hgone : x.store.live? x.now (recordKey node) = none) (heard : Nat)
    (hback : (WatchCall.listening ⟨node, listener, heard⟩).run x [third, []] = (c, y)) :
    c = .done (.ok ()) ∧ y.Orderly ∧ y.post node = none ∧
      y.calls node listener = x.calls node listener + 1 := by
  have hget : x.store.get x.now (recordKey node) =
      (.ok none, (x.store.expire x.now (recordKey node)).2) := by
    rw [Store.get_eq, Store.online_of_available honline, hgone]
    rfl
  rw [WatchCall.run, WatchCall.step_listening_none hget] at hback
  obtain ⟨rfl, rfl⟩ := Prod.mk.inj hback
  generalize htold : tell? _ _ = z
  have hz : z.Orderly := htold ▸ hx
  have hidle : z.post node = none := htold ▸ hpost
  have honce : z.calls node listener = x.calls node listener + 1 := by
    rw [← htold]
    refine (calls_append rfl node listener).trans ?_
    exact congrArg (x.calls node listener + ·) List.count_singleton_self
  obtain ⟨hpost', hsame⟩ := hz.vacant_run hidle hspared listener
  exact ⟨rfl, hz.run third, hpost', hsame.trans honce⟩

/-- **If the record is there at the look, a watch is set up**, which has listened before. -/
theorem course_of_live (hlive : (x.store.live? x.now (recordKey node)).isSome = true)
    (hsince : s.Becomes x.store)
    (hback : (WatchCall.listening ⟨node, listener, s.events.length⟩).run x [third, []] = (c, y)) :
    c = .done (.ok ()) ∧ y.Orderly ∧
      Posted node listener s y ⟨node, listener, s.events.length⟩ ∧
      (y.store.Holds (recordKey node) ∨ s.Loses y.store (recordKey node)) ∧
      y.calls node listener = x.calls node listener := by
  obtain ⟨e, he⟩ := Option.isSome_iff_exists.1 hlive
  have hget : x.store.get x.now (recordKey node) = (.ok (some e.value), x.store) := by
    rw [Store.get_eq, Store.online_of_available honline, he, Store.expire_of_live he]
    rfl
  rw [WatchCall.run, WatchCall.step_listening_some hget] at hback
  obtain ⟨rfl, rfl⟩ := Prod.mk.inj hback
  obtain ⟨hpost', hsame⟩ := hx.vacant_run hpost hspared listener
  have hafter := hx.becomes_run third
  obtain ⟨hposted, horderly⟩ :=
    (hx.run third).posted_found hpost' listener (hsince.trans hafter)
  refine ⟨rfl, horderly, hposted, ?_, hsame⟩
  -- The record was there at the look, so it can only be gone by now if it has left since.
  refine or_iff_not_imp_left.2 fun hgone => hsince.loses_trans (hafter.loses_of_gone ?_ hgone)
  exact ⟨e, (Store.find?_of_live? he).1⟩

end Look

/-- **A watch never misses a removal and never fires twice**, whatever happens behind each step of
the call and after it. If the record is gone at the look, the listener has been called once when the
call is back, and no watch is left. Otherwise it has not been called yet, and what comes of the watch
is counted from the moment it began to listen. -/
theorem watch_fires_once {began look y : Sentry} {c₁ c₂ c₃ : WatchCall}
    {first second third : List Action} (hx : x.Reachable)
    (hvacant : x.client.tasks.isRunning (Client.watchTask node) = false)
    (hspared : ∀ a ∈ first ++ second ++ third, a.Spares node)
    (hbegan : (WatchCall.asked node listener).run x [first] = (c₁, began))
    (hlook : c₁.run began [second] = (c₂, look))
    (honline : look.store.available = true)
    (hback : c₂.run look [third, []] = (c₃, y)) :
    c₃ = .done (.ok ()) ∧
      (look.store.live? look.now (recordKey node) = none →
        y.calls node listener = x.calls node listener + 1 ∧
          y.client.tasks.isRunning (Client.watchTask node) = false ∧
          ∀ late : List Action, (∀ a ∈ late, a.Keeps node listener) →
            (y.run late).calls node listener = y.calls node listener ∧
              (y.run late).watches node listener = []) ∧
      ((look.store.live? look.now (recordKey node)).isSome = true →
        y.calls node listener = x.calls node listener ∧
          ∀ late : List Action, (∀ a ∈ late, a.Keeps node listener) →
            Outcome began.store node listener y late) := by
  obtain ⟨hbefore, hthird⟩ := List.forall_mem_append.1 hspared
  obtain ⟨hfirst, hsecond⟩ := List.forall_mem_append.1 hbefore
  obtain ⟨rfl, rfl, rfl⟩ := course_of_vacant hvacant hbegan hlook
  obtain ⟨hpost, hcalls⟩ := hx.orderly.vacant_run (post_eq_none.2 hvacant) hfirst listener
  have hb := hx.orderly.run first
  obtain ⟨hidle, hsame⟩ := hb.vacant_run hpost hsecond listener
  have hl := hb.run second
  cases hlive : ((x.run first).run second).store.live? _ (recordKey node) with
  | none =>
    obtain ⟨rfl, hy, hvacant', honce⟩ := course_of_gone hl hidle honline hthird hlive _ hback
    refine ⟨rfl, fun _ => ⟨?_, post_eq_none.1 hvacant', fun late hlate => ?_⟩, nofun⟩
    · rw [honce, hsame, hcalls]
    · obtain ⟨hover, hstill⟩ := (over_of_none hvacant').run hy hlate
      exact ⟨hstill, (hy.run late).watches_eq_nil.2 hover⟩
  | some e =>
    obtain ⟨rfl, hy, hposted, hheld, hstill⟩ := course_of_live hl hidle honline hthird
      (congrArg Option.isSome hlive) (hb.becomes_run second) hback
    refine ⟨rfl, nofun, fun _ => ⟨?_, fun late hlate => hposted.outcome hy hlate hheld⟩⟩
    rw [hstill, hsame, hcalls]

def desk : Listener := .outside "desk"

/-- The record of a printer is written. -/
def written : List Action := [.store (.put (recordKey "printer") "" 10000)]

/-- A watch of the printer is set up, whose record is written just before the look. -/
def watched : Sentry := ((WatchCall.asked "printer" desk).run (new 0 {}) [[], written, [], []]).2

/-- The record is deleted and written anew. -/
def replaced : List Action := .store (.delete (recordKey "printer")) :: written

/-- The watch hears of the old record, though there is a new one. -/
theorem watch_fires_once_replaced :
    ((watched.run replaced).store.entries.find? (recordKey "printer")).isSome = true ∧
      (watched.run replaced).calls "printer" desk = 0 ∧
      ((watched.run replaced).hear 0 1).calls "printer" desk = 1 ∧
      ((watched.run replaced).hear 0 1).watches "printer" desk = [] := by
  have hspared : ∀ a ∈ [] ++ written ++ [], a.Spares "printer" := by
    simp [written, Action.Spares]
  have hkeeps : ∀ a ∈ replaced, a.Keeps "printer" desk := by
    simp [replaced, written, Action.Keeps]
  have hbegan : (WatchCall.asked "printer" desk).run (new 0 {}) [[]] =
      (.vacant "printer" desk, new 0 {}) := rfl
  obtain ⟨-, -, hlive⟩ := watch_fires_once (y := watched) ⟨0, {}, [], rfl⟩ rfl hspared hbegan rfl
    (by decide +kernel) rfl
  obtain ⟨hcalls, houtcome⟩ := hlive (by decide +kernel)
  have hout := houtcome replaced hkeeps
  have hgone : ¬(watched.run [.store (.delete (recordKey "printer"))]).store.Holds
      (recordKey "printer") := by
    rintro ⟨e, he⟩
    have hnone : (watched.run [.store (.delete (recordKey "printer"))]).store.entries.find?
        (recordKey "printer") = none := by decide +kernel
    cases hnone.symm.trans he
  have hlost := (hout.kept [.store (.delete (recordKey "printer"))] written rfl).resolve_left hgone
  obtain ⟨honce, hover⟩ := hout.heard hlost 0 ⟨"printer", desk, 0⟩ 1 (by decide +kernel) rfl
    (by decide +kernel)
  exact ⟨by decide +kernel, by decide +kernel, honce.trans (congrArg (· + 1) hcalls), hover⟩

end Sentry
end RemoteCall.Registry
