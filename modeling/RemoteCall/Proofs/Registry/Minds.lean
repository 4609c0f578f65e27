import RemoteCall.Proofs.Registry.Vigils

/-! What a cache goes by.

A cache goes by itself and by the watches that run for it: by what the store holds and has
announced of each watched node. Two clients at two stores mind the same if they agree in this
(`Minds`), whatever else they watch. They go on to do so when they do the same, if no discovery
comes to a node that is watched for somebody outside, for then the cache is left without a watch
(`Minds.watch`, `Minds.step`). A watch for somebody outside is nothing that a cache would mind
(`Minds.watch_left`). -/
namespace RemoteCall.Registry

open Store (Alike)

/-- Two clients whose caches are the same and go by the same at their stores. -/
structure Minds (s t : Store) (c d : CachedClient) : Prop where
  cache : c.cache = d.cache
  idle : ∀ node, c.client.vigil node = none ↔ d.client.vigil node = none
  alike : ∀ node v w, c.client.vigil node = some v → d.client.vigil node = some w →
    Alike (recordKey node) v.heard w.heard s t

/-- A watch of a client hears at most so many announcements, and may call its listener. -/
def CachedClient.listen (c : CachedClient) (s : Store) (key : String) (count : Nat) :
    CachedClient :=
  { c with client := (c.client.listen s key count).2 }.notify? (c.client.listen s key count).1

/-- Whether a discovery is about to watch a node that is watched for somebody outside. -/
def Lookup.stuck (l : Lookup) (c : Client) : Bool :=
  match l with
  | .watching _ _ _ (i :: _) => c.lends i.nodeKey
  | _ => false

theorem cache_unregister (c : CachedClient) (s : Store) (now : Nat) (i : Instance) :
    (c.unregister s now i).2.2.cache =
      if s.available then (c.cache.invalidate i.serviceKey).2 else c.cache := by
  rw [CachedClient.unregister, Client.unregister, Store.delete_eq]
  cases h : s.available with
  | false =>
    rw [Store.online_of_offline h]
    rfl
  | true =>
    rw [Store.online_of_available h]
    rfl

/-! ### Asking for a watch -/

namespace Client
variable {now : Nat} {s : Store} {c : Client} {node : String} {listener : Listener}

theorem watch_of_running (h : c.tasks.isRunning (watchTask node) = true) :
    c.watch s now node listener = (.ok none, s, c) := if_pos h

section Idle
variable (hidle : c.tasks.at? (watchTask node) = none)
include hidle

theorem not_running_of_idle : ¬c.tasks.isRunning (watchTask node) = true := by
  rw [TaskSet.isRunning_eq_isSome, hidle]
  exact Bool.false_ne_true

theorem watch_of_offline (h : s.available = false) :
    c.watch s now node listener = (.error Store.offline, s, c) := by
  have hget : s.get now (recordKey node) = (.error Store.offline, s) := by
    rw [Store.get_eq, Store.online_of_offline h]
  rw [watch, if_neg (not_running_of_idle hidle)]
  dsimp only
  rw [hget]

theorem watch_of_gone (h : s.available = true) (hgone : s.live? now (recordKey node) = none) :
    c.watch s now node listener =
      (.ok (some ⟨listener, node⟩), (s.expire now (recordKey node)).2, c) := by
  have hget : s.get now (recordKey node) = (.ok none, (s.expire now (recordKey node)).2) := by
    rw [Store.get_eq, Store.online_of_available h, hgone]
    rfl
  rw [watch, if_neg (not_running_of_idle hidle)]
  dsimp only
  rw [hget]
  rfl

theorem watch_of_live (h : s.available = true) {e : Entry}
    (hlive : s.live? now (recordKey node) = some e) :
    c.watch s now node listener = (.ok none, s, { c with tasks :=
      (c.tasks.spawnIfAbsent (watchTask node) (.watch ⟨node, listener, s.events.length⟩)).2 }) := by
  have hget : s.get now (recordKey node) = (.ok (some e.value), s) := by
    rw [Store.get_eq, Store.online_of_available h, hlive, Store.expire_of_live hlive]
    rfl
  rw [watch, if_neg (not_running_of_idle hidle)]
  dsimp only
  rw [hget]

end Idle
end Client

namespace Minds
variable {now count : Nat} {s t s' t' : Store} {c d c' d' : CachedClient} {key node : String}

theorem symm (h : Minds s t c d) : Minds t s d c where
  cache := h.cache.symm
  idle node := (h.idle node).symm
  alike node v w hv hw := (h.alike node w v hw hv).symm

theorem exists_right (h : Minds s t c d) {v : Watch} (hv : c.client.vigil node = some v) :
    ∃ w, d.client.vigil node = some w := by
  refine Option.ne_none_iff_exists'.1 fun hnone => ?_
  rw [(h.idle node).2 hnone] at hv
  cases hv

/-- The stores change, and agree in all that the caches go by. -/
theorem mono (h : Minds s t c d)
    (hstore : ∀ key m n, Alike key m n s t → Alike key m n s' t') : Minds s' t' c d where
  cache := h.cache
  idle := h.idle
  alike node v w hv hw := hstore _ _ _ (h.alike node v w hv hw)

/-- The clients change in no watch for their caches. -/
theorem congr (h : Minds s t c d) (hcache : c'.cache = d'.cache)
    (hc : ∀ node, c'.client.vigil node = c.client.vigil node)
    (hd : ∀ node, d'.client.vigil node = d.client.vigil node) : Minds s t c' d' where
  cache := hcache
  idle node := by
    rw [hc, hd]
    exact h.idle node
  alike node v w hv hw := by
    rw [hc] at hv
    rw [hd] at hw
    exact h.alike node v w hv hw

/-- At one node the clients change their watches, and at all others they do not. -/
theorem at_node (h : Minds s t c d) (node : String) (hcache : c'.cache = d'.cache)
    (hc : ∀ other, other ≠ node → c'.client.vigil other = c.client.vigil other)
    (hd : ∀ other, other ≠ node → d'.client.vigil other = d.client.vigil other)
    (hnode : (c'.client.vigil node = none ∧ d'.client.vigil node = none) ∨
      ∃ v w, c'.client.vigil node = some v ∧ d'.client.vigil node = some w ∧
        Alike (recordKey node) v.heard w.heard s t) : Minds s t c' d' where
  cache := hcache
  idle other := by
    by_cases hother : other = node
    · subst hother
      rcases hnode with ⟨hc', hd'⟩ | ⟨v, w, hv, hw, -⟩
      · simp only [hc', hd']
      · simp only [hv, hw, reduceCtorEq]
    · rw [hc other hother, hd other hother]
      exact h.idle other
  alike other v w hv hw := by
    by_cases hother : other = node
    · subst hother
      rcases hnode with ⟨hc', hd'⟩ | ⟨v', w', hv', hw', halike⟩
      · rw [hc'] at hv
        cases hv
      · obtain rfl := Option.some.inj (hv'.symm.trans hv)
        obtain rfl := Option.some.inj (hw'.symm.trans hw)
        exact halike
    · rw [hc other hother] at hv
      rw [hd other hother] at hw
      exact h.alike other v w hv hw

end Minds

/-! ### Watches -/

section Watches
variable {now count heard : Nat} {s t : Store} {c d : CachedClient} {key node : String}
  {listener : Listener} {v : Watch}

/-- What runs under the key of the watch of a node changes. -/
theorem Client.vigil_retask {c : Client} {tasks : TaskSet Job} (job : Option Job)
    (htasks : ∀ other, tasks.at? other =
      if other = Client.watchTask node then job else c.tasks.at? other) (other : String) :
    Client.vigil { c with tasks := tasks } other =
      if other = node then job.bind Job.vigil? else c.vigil other := by
  show (tasks.at? _).bind _ = _
  rw [htasks]
  by_cases hother : other = node
  · rw [if_pos hother, if_pos (congrArg Client.watchTask hother)]
  · rw [if_neg hother, if_neg fun heq => hother (Client.watchTask_inj heq)]
    rfl

/-- A watch is set up where none runs. -/
theorem Client.Orderly.vigil_spawn {c : Client} (h : c.Orderly)
    (hidle : c.tasks.at? (Client.watchTask node) = none) (w : Watch) (other : String) :
    Client.vigil { c with
        tasks := (c.tasks.spawnIfAbsent (Client.watchTask node) (.watch w)).2 } other =
      if other = node then (Job.watch w).vigil? else c.vigil other := by
  refine Client.vigil_retask (some (.watch w)) (fun other => ?_) other
  rw [h.tasks.tidy.at?_spawn, hidle]
  rfl

theorem Job.vigil?_of_outside {w : Watch} (h : w.listener ≠ .cache) :
    (Job.watch w).vigil? = none := if_neg h

/-- A record that can be seen in two stores is the same for everybody who begins to listen. -/
theorem Store.alike_of_live {e : Entry} (havailable : s.available = t.available)
    (hs : s.live? now key = some e) (ht : t.live? now key = some e) :
    Alike key s.events.length t.events.length s t where
  available := havailable
  entry := (find?_of_live? hs).1.trans (find?_of_live? ht).1.symm
  left := Nat.le_refl _
  right := Nat.le_refl _
  unheard := by simp only [unheard, List.drop_length]

/-- **Two caches that mind the same ask for a watch**, where no other watch is in the way. -/
theorem Minds.watch (h : Minds s t c d) (hc : c.client.Orderly) (hd : d.client.Orderly)
    (havailable : s.available = t.available)
    (hlive : s.live? now (recordKey node) = t.live? now (recordKey node))
    (hlends : c.client.lends node = false) (hlends' : d.client.lends node = false) :
    (c.watch s now node .cache).1 = (d.watch t now node .cache).1 ∧
      Minds (c.watch s now node .cache).2.1 (d.watch t now node .cache).2.1
        (c.watch s now node .cache).2.2 (d.watch t now node .cache).2.2 := by
  cases hvigil : c.client.vigil node with
  | some v =>
    obtain ⟨w, hw⟩ := h.exists_right hvigil
    have hruns {c : Client} {w : Watch} (hw : c.vigil node = some w) :
        c.tasks.isRunning (Client.watchTask node) = true := by
      rw [TaskSet.isRunning_eq_isSome, (Client.at?_of_vigil hw).1]
      rfl
    rw [CachedClient.watch, CachedClient.watch, Client.watch_of_running (hruns hvigil),
      Client.watch_of_running (hruns hw)]
    exact ⟨rfl, h⟩
  | none =>
    have hidle := hc.idle hvigil hlends
    have hidle' := hd.idle ((h.idle node).1 hvigil) hlends'
    rw [CachedClient.watch, CachedClient.watch]
    cases hs : s.available with
    | false =>
      rw [Client.watch_of_offline hidle hs, Client.watch_of_offline hidle' (havailable ▸ hs)]
      exact ⟨rfl, h⟩
    | true =>
      cases he : s.live? now (recordKey node) with
      | none =>
        rw [Client.watch_of_gone hidle hs he,
          Client.watch_of_gone hidle' (havailable ▸ hs) (hlive ▸ he)]
        have hstore : Minds (s.expire now (recordKey node)).2 (t.expire now (recordKey node)).2 c d :=
          h.mono fun key m n halike => halike.expire _
        refine ⟨rfl, hstore.congr ?_ (fun _ => rfl) fun _ => rfl⟩
        exact congrArg (fun cache => (Cache.invalidateNode cache node).2) h.cache
      | some e =>
        rw [Client.watch_of_live hidle hs he,
          Client.watch_of_live hidle' (havailable ▸ hs) (hlive ▸ he)]
        have hspawn := hc.vigil_spawn hidle ⟨node, .cache, s.events.length⟩
        have hspawn' := hd.vigil_spawn hidle' ⟨node, .cache, t.events.length⟩
        refine ⟨rfl, h.at_node node h.cache (fun other hother => ?_) (fun other hother => ?_)
          (.inr ⟨⟨node, .cache, s.events.length⟩, ⟨node, .cache, t.events.length⟩, ?_, ?_,
            Store.alike_of_live havailable he (hlive ▸ he)⟩)⟩
        · exact (hspawn other).trans (if_neg hother)
        · exact (hspawn' other).trans (if_neg hother)
        · exact (hspawn node).trans (if_pos rfl)
        · exact (hspawn' node).trans (if_pos rfl)

/-- **A cache does not mind that somebody outside asks for a watch.** -/
theorem Minds.watch_left (h : Minds s t c d) (hc : c.client.Orderly) (tag : String) :
    Minds (c.watch s now node (.outside tag)).2.1 t (c.watch s now node (.outside tag)).2.2 d := by
  rw [CachedClient.watch]
  by_cases hruns : c.client.tasks.isRunning (Client.watchTask node) = true
  · rw [Client.watch_of_running hruns]
    exact h
  · have hidle : c.client.tasks.at? (Client.watchTask node) = none := by
      rwa [TaskSet.isRunning_eq_isSome, Bool.not_eq_true, Option.isSome_eq_false_iff,
        Option.isNone_iff_eq_none] at hruns
    cases hs : s.available with
    | false =>
      rw [Client.watch_of_offline hidle hs]
      exact h
    | true =>
      cases he : s.live? now (recordKey node) with
      | none =>
        rw [Client.watch_of_gone hidle hs he]
        refine ⟨h.cache, h.idle, fun other v w hv hw => ?_⟩
        refine (h.alike other v w hv hw).expire_left fun heq => ?_
        -- What the record of the node is to the cache is left open: the cache does not watch it.
        obtain rfl := recordKey_inj.1 heq
        have hvigil : c.client.vigil other = some v := hv
        rw [(Client.at?_of_vigil hvigil).1] at hidle
        cases hidle
      | some e =>
        rw [Client.watch_of_live hidle hs he]
        have hspawn := hc.vigil_spawn hidle ⟨node, .outside tag, s.events.length⟩
        refine h.congr h.cache (fun other => (hspawn other).trans ?_) fun _ => rfl
        split
        · next hother =>
          rw [hother, Client.vigil, hidle]
          rfl
        · rfl

/-! ### Hearing -/

/-- A watch for the cache is over. -/
theorem CachedClient.listen_fire (hv : c.client.vigil node = some v)
    (h : v.listenAll s.events count = .fire) :
    c.listen s (Client.watchTask node) count =
      { c with
        client := { c.client with
          tasks := c.client.tasks.finish (c.client.tasks.idOf (Client.watchTask node)) }
        cache := (c.cache.invalidateNode v.node).2 } := by
  obtain ⟨hjob, hlistener⟩ := Client.at?_of_vigil hv
  rw [listen, Client.listen, hjob]
  simp only [Client.hear, h, Client.goOn]
  rw [notify?, notify, Watch.notice, hlistener]

/-- A watch for the cache goes on. -/
theorem CachedClient.listen_on (hv : c.client.vigil node = some v) {m : Nat}
    (h : v.listenAll s.events count = .listen { v with heard := m }) :
    c.listen s (Client.watchTask node) count =
      { c with client := { c.client with
        tasks := c.client.tasks.update (c.client.tasks.idOf (Client.watchTask node))
          (.watch { v with heard := m }) } } := by
  obtain ⟨hjob, -⟩ := Client.at?_of_vigil hv
  rw [listen, Client.listen, hjob]
  simp only [Client.hear, h, Client.goOn]
  rfl

/-- What is no watch for the cache hears nothing that the cache would mind. -/
theorem CachedClient.listen_other (hc : c.client.Orderly)
    (h : (c.client.tasks.at? key).bind Job.vigil? = none) (s : Store) (count : Nat) :
    (c.listen s key count).cache = c.cache ∧
      ∀ node, (c.listen s key count).client.vigil node = c.client.vigil node := by
  cases hjob : c.client.tasks.at? key with
  | none =>
    rw [listen, Client.listen, hjob]
    exact ⟨rfl, fun _ => rfl⟩
  | some job =>
    rw [hjob] at h
    have hquiet (job' : Option Job) (hjob' : job'.bind Job.vigil? = none)
        {tasks : TaskSet Job}
        (htasks : ∀ other, tasks.at? other = if other = key then job' else c.client.tasks.at? other)
        (node : String) :
        Client.vigil { c.client with tasks := tasks } node = c.client.vigil node := by
      rw [Client.vigil, Client.vigil, htasks]
      split
      · next heq => rw [heq, hjob, hjob', h]
      · rfl
    cases job with
    | sweeper period next =>
      rw [listen, Client.listen, hjob]
      exact ⟨rfl, fun _ => rfl⟩
    | heartbeat period next ttl =>
      rw [listen, Client.listen, hjob]
      exact ⟨rfl, fun _ => rfl⟩
    | watch w =>
      have houtside : w.listener ≠ .cache := fun hlistener => by
        simp [Job.vigil?, hlistener] at h
      rw [listen, Client.listen, hjob]
      simp only [Client.hear]
      cases hnext : w.listenAll s.events count with
      | wait => exact ⟨rfl, fun _ => rfl⟩
      | listen v =>
        have hlistener := (Watch.target_of_listenAll hnext).2
        refine ⟨rfl, hquiet (some (.watch v)) ?_ (hc.tasks.tidy.at?_update hjob (.watch v))⟩
        exact Job.vigil?_of_outside (hlistener ▸ houtside)
      | fire =>
        refine ⟨?_, fun node => ?_⟩
        · rw [Client.goOn, notify?, notify, Watch.notice]
          cases hlistener : w.listener with
          | cache => exact absurd hlistener houtside
          | outside tag => rfl
        · rw [client_notify]
          exact hquiet none rfl (hc.tasks.tidy.at?_finish hjob) node

/-- **Two caches that mind the same hear the same**, if their watches hear out what there is. -/
theorem Minds.listen (h : Minds s t c d) (hc : c.client.Orderly) (hd : d.client.Orderly)
    (key : String) (count : Nat)
    (hhears : ((c.client.tasks.at? key).bind Job.vigil?).all (·.hearsOut s.events count) = true)
    (hhears' : ((d.client.tasks.at? key).bind Job.vigil?).all (·.hearsOut t.events count) = true) :
    Minds s t (c.listen s key count) (d.listen t key count) := by
  by_cases hkey : ∃ node v, key = Client.watchTask node ∧ c.client.vigil node = some v
  · obtain ⟨node, v, rfl, hv⟩ := hkey
    obtain ⟨w, hw⟩ := h.exists_right hv
    have hnode := hc.node_of_vigil hv
    have hnode' := hd.node_of_vigil hw
    have hsame : Alike (recordKey w.node) v.heard w.heard s t :=
      hnode'.symm ▸ h.alike node v w hv hw
    have hout : v.hearsOut s.events count = true :=
      (Option.all_eq_true _ _).1 hhears v hv
    have hout' : w.hearsOut t.events count = true :=
      (Option.all_eq_true _ _).1 hhears' w hw
    obtain ⟨hjob, hlistener⟩ := Client.at?_of_vigil hv
    obtain ⟨hjob', hlistener'⟩ := Client.at?_of_vigil hw
    rcases Watch.listenAll_alike hsame (hnode.trans hnode'.symm) hout hout' with
      ⟨hfire, hfire'⟩ | ⟨m, n, hon, hon', halike⟩
    · rw [CachedClient.listen_fire hv hfire, CachedClient.listen_fire hw hfire', hnode, hnode']
      have hover := Client.vigil_retask _ (hc.tasks.tidy.at?_finish hjob)
      have hover' := Client.vigil_retask _ (hd.tasks.tidy.at?_finish hjob')
      refine h.at_node node ?_ (fun other hother => ?_) (fun other hother => ?_) (.inl ⟨?_, ?_⟩)
      · exact congrArg (fun cache => (Cache.invalidateNode cache node).2) h.cache
      · exact (hover other).trans (if_neg hother)
      · exact (hover' other).trans (if_neg hother)
      · exact (hover node).trans (if_pos rfl)
      · exact (hover' node).trans (if_pos rfl)
    · rw [CachedClient.listen_on hv hon, CachedClient.listen_on hw hon']
      have hgoes := Client.vigil_retask _ (hc.tasks.tidy.at?_update hjob (.watch { v with heard := m }))
      have hgoes' := Client.vigil_retask _ (hd.tasks.tidy.at?_update hjob' (.watch { w with heard := n }))
      refine h.at_node node h.cache (fun other hother => ?_) (fun other hother => ?_)
        (.inr ⟨{ v with heard := m }, { w with heard := n }, ?_, ?_, hnode' ▸ halike⟩)
      · exact (hgoes other).trans (if_neg hother)
      · exact (hgoes' other).trans (if_neg hother)
      · exact (hgoes node).trans ((if_pos rfl).trans (if_pos hlistener))
      · exact (hgoes' node).trans ((if_pos rfl).trans (if_pos hlistener'))
  · have hnone {c : CachedClient} (hc : c.client.Orderly)
        (hkey : ∀ node v, key = Client.watchTask node → c.client.vigil node ≠ some v) :
        (c.client.tasks.at? key).bind Job.vigil? = none := by
      refine Option.eq_none_iff_forall_ne_some.2 fun v hv => ?_
      obtain ⟨job, hjob, hw⟩ := Option.bind_eq_some_iff.1 hv
      have hkind := hc.tasks.keyed key job hjob
      cases job with
      | watch w =>
        replace hkind : key = Client.watchTask w.node := hkind
        subst hkind
        exact hkey w.node v rfl hv
      | sweeper period next => cases hw
      | heartbeat period next ttl => cases hw
    have hleft := hnone hc fun node v heq hv => hkey ⟨node, v, heq, hv⟩
    have hright := hnone hd fun node w heq hw => by
      obtain ⟨v, hv⟩ := h.symm.exists_right hw
      exact hkey ⟨node, v, heq, hv⟩
    obtain ⟨hcache, hvigil⟩ := CachedClient.listen_other hc hleft s count
    obtain ⟨hcache', hvigil'⟩ := CachedClient.listen_other hd hright t count
    exact h.congr (hcache.trans (h.cache.trans hcache'.symm)) hvigil hvigil'

/-! ### Discoveries -/

theorem Lookup.look_congr (h : c.cache = d.cache) (l : Lookup) : l.look c = l.look d := by
  cases l with
  | start service => rw [look, look, h]
  | missed service => rw [look, look, h]
  | _ => rfl

theorem Client.discover_congr (hs : s.entries.Sorted) (ht : t.entries.Sorted)
    (havailable : s.available = t.available)
    (hlive : ∀ node, s.live? now (recordKey node) = t.live? now (recordKey node))
    (service : String) : (discover s now service).1 = (discover t now service).1 := by
  rw [discover_fst, discover_fst, havailable, Store.listing_eq hs ht fun key hkey => ?_]
  obtain ⟨node, rfl⟩ := exists_node hkey
  exact hlive node

/-- **Two caches that mind the same take the same step of a discovery**, unless it comes to a
node that is watched for somebody outside. -/
theorem Minds.step (h : Minds s t c d) (hc : c.client.Orderly) (hd : d.client.Orderly)
    (hs : s.entries.Sorted) (ht : t.entries.Sorted) (havailable : s.available = t.available)
    (hlive : ∀ node, s.live? now (recordKey node) = t.live? now (recordKey node)) (l : Lookup)
    (hstuck : l.stuck c.client = false) (hstuck' : l.stuck d.client = false) :
    (l.step c s now).1 = (l.step d t now).1 ∧
      Minds (l.step c s now).2.1 (l.step d t now).2.1 (l.step c s now).2.2 (l.step d t now).2.2 := by
  cases l with
  | start service =>
    refine ⟨?_, h⟩
    show Lookup.look c (Lookup.look c _) = Lookup.look d (Lookup.look d _)
    rw [Lookup.look_congr h.cache, Lookup.look_congr h.cache]
  | missed service => exact ⟨Lookup.look_congr h.cache (.missed service), h⟩
  | done result => exact ⟨rfl, h⟩
  | asking service generation =>
    have hfound := Client.discover_congr hs ht havailable hlive service
    have hstore : Minds (Client.discover s now service).2 (Client.discover t now service).2 c d := by
      exact h.mono fun key m n halike => Client.alike_discover halike hs ht service
    rcases hleft : Client.discover s now service with ⟨found, s'⟩
    rcases hright : Client.discover t now service with ⟨found', t'⟩
    rw [hleft, hright] at hfound hstore
    obtain rfl : found = found' := hfound
    unfold Lookup.step
    dsimp only
    rw [hleft, hright]
    cases found with
    | ok found => exact ⟨rfl, hstore⟩
    | error e => exact ⟨rfl, hstore⟩
  | watching service generation found left =>
    cases left with
    | nil =>
      refine ⟨rfl, h.congr ?_ (fun node => ?_) fun node => ?_⟩
      · show (Lookup.keep c _ _ _).cache = (Lookup.keep d _ _ _).cache
        unfold Lookup.keep
        split
        · exact h.cache
        · exact congrArg (fun cache => (Cache.fill cache service generation found).2) h.cache
      · exact congrArg (Client.vigil · node) (client_keep c service generation found)
      · exact congrArg (Client.vigil · node) (client_keep d service generation found)
    | cons i left =>
      obtain ⟨hresult, hwatch⟩ := h.watch hc hd havailable (hlive i.nodeKey) hstuck hstuck'
      rcases hleft : c.watch s now i.nodeKey .cache with ⟨r, s', c'⟩
      rcases hright : d.watch t now i.nodeKey .cache with ⟨r', t', d'⟩
      rw [hleft, hright] at hresult hwatch
      obtain rfl : r = r' := hresult
      unfold Lookup.step
      dsimp only
      rw [hleft, hright]
      cases r with
      | ok _ => exact ⟨rfl, hwatch⟩
      | error e => exact ⟨rfl, hwatch⟩

end Watches
end RemoteCall.Registry
