import RemoteCall.Proofs.Registry.Guards

/-! What a cache answers is there.

A discovery notes the generation of the service before it asks, and watches all that it has found
before it hands it in. So whatever is done meanwhile, what the cache holds is watched by watches
that have not called it yet, and every discovery under way has seen to what it will hand in
(`Coherent`). Once the watches have heard everything, each instance in the cache therefore has an
entry in the store (`Coherent.holds`), and if the store was swept on the way the lease of this
entry ends later than that.

One thing may go wrong. A watch that has called its listener still runs, though it hears nothing
any more, until its task has come to its end. A discovery that comes just then finds it running and
leaves the node to it (`mistakes`); then nobody watches the node (`mistaken_stays`). -/
namespace RemoteCall.Registry
namespace Outpost
variable {service node : String} {o p : Outpost} {a : Action}

def generation (o : Outpost) (service : String) : Nat := o.member.cache.generation service

/-- Whether a watch of the node that runs has called its listener. -/
def spent (o : Outpost) (node : String) : Bool :=
  o.called.any fun id =>
    match o.job? id with
    | some (.watch w) => w.node = node
    | _ => false

/-- Whether by an action a discovery leaves it to a watch that has called its listener to watch a
node, and does so in time for its list to be kept. -/
def mistakes (o : Outpost) (node : String) : Action → Bool
  | .search n =>
    match o.searches[n]? with
    | some ⟨.watching service generation _ (i :: _), none⟩ =>
      i.nodeKey = node && o.generation service = generation && o.spent node
    | _ => false
  | _ => false

/-! ### What the cache relies on -/

/-- Whether a node belongs to a service and is watched for the cache. -/
structure Tended (service node : String) (o : Outpost) : Prop where
  service : Cache.serviceOf? node = some service
  guarded : Guarded o.tasks o.called node

/-- How one state may become another, as a service and a node see it. -/
structure Keeps (service node : String) (o p : Outpost) : Prop where
  generation : o.generation service ≤ p.generation service
  guarded : p.generation service = o.generation service → Cache.serviceOf? node = some service →
    Guarded o.tasks o.called node → Guarded p.tasks p.called node
  unspent : p.generation service = o.generation service → Cache.serviceOf? node = some service →
    Unspent o.tasks o.called node → Unspent p.tasks p.called node
  read : ∀ found, p.member.cache.read service = some found → node ∈ found.map Instance.nodeKey →
    (o.member.cache.read service = some found ∧ p.generation service = o.generation service) ∨
      Tended service node p

/-- What a discovery of a service may rely on while it watches what it found, as to one node. -/
structure Halfway (service node : String) (o : Outpost) (generation : Nat)
    (found left : List Instance) (asked : Bool) : Prop where
  noted : generation ≤ o.generation service
  part : left <:+ found
  owned : node ∈ found.map Instance.nodeKey → Cache.serviceOf? node = some service
  watched : o.generation service = generation → node ∈ found.map Instance.nodeKey →
    node ∈ left.map Instance.nodeKey ∨ Guarded o.tasks o.called node
  unspent : o.generation service = generation → asked = true →
    (left.map Instance.nodeKey).head? = some node → Unspent o.tasks o.called node

/-- What a discovery may rely on. -/
def Sure (service node : String) (o : Outpost) (q : Search) : Prop :=
  match q.lookup with
  | .asking asked generation => asked = service → generation ≤ o.generation service
  | .watching asked generation found left =>
    asked = service → Halfway service node o generation found left q.call.isSome
  | _ => True

theorem Keeps.of_forgets (hcache : o.member.cache.Forgets p.member.cache)
    (hguarded : Guarded o.tasks o.called node → Guarded p.tasks p.called node)
    (hunspent : Unspent o.tasks o.called node → Unspent p.tasks p.called node) :
    Keeps service node o p where
  generation := hcache.generation service
  guarded _ _ := hguarded
  unspent _ _ := hunspent
  read found hread _ := .inl (hcache.read service found hread)

theorem Keeps.halfway (h : Keeps service node o p) {generation : Nat} {found left : List Instance}
    {asked : Bool} (hhalf : Halfway service node o generation found left asked) :
    Halfway service node p generation found left asked := by
  -- The cache's generation lies between the noted one and the present one.
  have hnoted := hhalf.noted
  have hafter := h.generation
  refine ⟨Nat.le_trans hnoted hafter, hhalf.part, hhalf.owned, fun hnow hmem => ?_,
    fun hnow hasked hhead => ?_⟩
  · refine (hhalf.watched (by omega) hmem).imp_right ?_
    exact h.guarded (by omega) (hhalf.owned hmem)
  · have hmem : node ∈ found.map Instance.nodeKey :=
      (hhalf.part.map Instance.nodeKey).subset (List.mem_of_mem_head? hhead)
    exact h.unspent (by omega) (hhalf.owned hmem) (hhalf.unspent (by omega) hasked hhead)

theorem Keeps.sure (h : Keeps service node o p) {q : Search} (hq : Sure service node o q) :
    Sure service node p q := by
  unfold Sure at hq ⊢
  split
  · next hlookup =>
    rw [hlookup] at hq
    exact fun hs => Nat.le_trans (hq hs) h.generation
  · next hlookup =>
    rw [hlookup] at hq
    exact fun hs => h.halfway (hq hs)
  · trivial

/-- One more node is seen to. -/
theorem Halfway.pass {generation : Nat} {found left : List Instance} {i : Instance} {asked : Bool}
    (h : Halfway service node o generation found (i :: left) asked)
    (hkeeps : Keeps service node o p)
    (hfirst : i.nodeKey = node → p.generation service = generation →
      Guarded p.tasks p.called node) :
    Halfway service node p generation found left false := by
  have hhalf := hkeeps.halfway h
  refine ⟨hhalf.noted, (List.suffix_cons i left).trans hhalf.part, hhalf.owned,
    fun hnow hmem => ?_, fun _ hasked => by cases hasked⟩
  rcases hhalf.watched hnow hmem with hleft | hguarded
  · rcases List.mem_cons.1 hleft with hsame | hrest
    · exact .inr (hfirst hsame.symm hnow)
    · exact .inl hrest
  · exact .inr hguarded

/-! ### What a step does -/

/-- A list is handed in of nodes that are watched. -/
theorem keeps_keep {asked : String} {generation : Nat} {found : List Instance}
    {call : Option WatchCall}
    (hsure : Sure service node o ⟨.watching asked generation found [], call⟩)
    (htasks : p.tasks = o.tasks) (hcalled : p.called = o.called)
    (hcache : p.member.cache = (Lookup.keep o.member asked generation found).cache) :
    Keeps service node o p := by
  unfold Lookup.keep at hcache
  split at hcache
  · refine .of_forgets (hcache ▸ .refl _) ?_ ?_ <;> rw [htasks, hcalled] <;> exact id
  · have hsame : p.generation service = o.generation service := by
      rw [Outpost.generation, hcache]
      exact Cache.generation_fill _ _ _ _ _
    refine ⟨Nat.le_of_eq hsame.symm, fun _ _ => ?_, fun _ _ => ?_, fun list hread hmem => ?_⟩
    · rw [htasks, hcalled]
      exact id
    · rw [htasks, hcalled]
      exact id
    · rw [hcache] at hread
      rcases Cache.read_fill hread with hold | ⟨rfl, rfl, hgeneration⟩
      · exact .inl ⟨hold, hsame⟩
      · have hhalf := hsure rfl
        refine .inr ⟨hhalf.owned hmem, ?_⟩
        rw [htasks, hcalled]
        exact (hhalf.watched hgeneration hmem).resolve_left List.not_mem_nil

/-- A watch calls its listener, and if it is of the node the service is forgotten. -/
theorem keeps_call {id : TaskId} {w : Watch}
    (hphase : o.tasks.phase? id = some (.running (.watch w))) (htasks : p.tasks = o.tasks)
    (hcalled : p.called = id :: o.called)
    (hcache : p.member.cache = (o.member.cache.invalidateNode w.node).2) :
    Keeps service node o p := by
  have hforgets : o.member.cache.Forgets p.member.cache :=
    hcache ▸ Cache.forgets_invalidateNode _ _
  have hother (hsame : p.generation service = o.generation service)
      (hservice : Cache.serviceOf? node = some service) : w.node ≠ node := by
    rintro rfl
    rw [Outpost.generation, hcache, Cache.generation_invalidateNode hservice] at hsame
    exact Nat.succ_ne_self _ hsame
  refine ⟨hforgets.generation service, fun hsame hservice h => ?_, fun hsame hservice h => ?_,
    fun found hread _ => .inl (hforgets.read service found hread)⟩
  · rw [htasks, hcalled]
    exact h.call hphase (hother hsame hservice)
  · rw [htasks, hcalled]
    exact h.call hphase (hother hsame hservice)

theorem Shift.keeps (h : Shift o p) (ho : o.Attended)
    (hsure : ∀ q ∈ o.searches, Sure service node o q) : Keeps service node o p := by
  cases h with
  | same htasks hcalled hcache =>
    refine .of_forgets hcache ?_ ?_ <;> rw [htasks, hcalled] <;> exact id
  | keep hsearch htasks hcalled hcache => exact keeps_keep (hsure _ hsearch) htasks hcalled hcache
  | start job haware htasks hcalled hcache =>
    refine .of_forgets (hcache ▸ .refl _) (fun h => ?_) fun h => ?_
    · rw [htasks, hcalled]
      exact h.spawn _ _
    · rw [htasks, hcalled]
      exact h.spawn ho.started _ _
  | goOn hphase hsame haware htasks hcalled hcache =>
    refine .of_forgets (hcache ▸ .refl _) (fun h => ?_) fun h => ?_
    · rw [htasks, hcalled]
      exact h.update hphase hsame
    · rw [htasks, hcalled]
      exact h.update hphase hsame
  | stop hphase hother htasks hcalled hcache =>
    refine .of_forgets (hcache ▸ .refl _) (fun h => ?_) fun h => ?_
    · rw [htasks, hcalled]
      exact h.finish hphase (.inr hother)
    · rw [htasks, hcalled]
      exact h.finish hphase
  | call hphase htasks hcalled hcache => exact keeps_call hphase htasks hcalled hcache
  | conclude hphase hover htasks hcalled hcache =>
    refine .of_forgets (hcache ▸ .refl _) (fun h => ?_) fun h => ?_
    · rw [htasks, hcalled]
      exact (h.finish hphase (.inl hover)).erase _
    · rw [htasks, hcalled]
      exact (h.finish hphase).erase _

/-- A discovery that finds a watch of the node running leaves the node to it. -/
theorem guarded_of_running (ho : o.Attended)
    (hruns : o.tasks.isRunning (Client.watchTask node) = true) (hfresh : o.spent node = false) :
    Guarded o.tasks o.called node := by
  obtain ⟨id, w, hphase, hnode⟩ := ho.orderly.watch_of_isRunning hruns
  refine ⟨id, w, hphase, hnode, fun hid => ?_⟩
  have hjob : o.job? id = some (.watch w) := by rw [job?, tasks, hphase]
  have hspent : o.spent node = true := by
    refine List.any_eq_true.2 ⟨id, hid, ?_⟩
    rw [hjob]
    exact decide_eq_true hnode
  rw [hfresh] at hspent
  cases hspent

theorem unspent_of_vacant (ho : o.Attended)
    (hruns : o.tasks.isRunning (Client.watchTask node) = false) :
    Unspent o.tasks o.called node := by
  rintro id w hphase rfl
  have hother := ho.orderly.isRunning_of_watch hphase
  rw [tasks] at hruns
  rw [hruns] at hother
  cases hother

/-- Whether a discovery is about to take a watch of the node that has called its listener for one
that goes on. -/
def Mistaken (o : Outpost) (node : String) (q : Search) : Prop :=
  ∃ service found i left, q = ⟨.watching service (o.generation service) found (i :: left), none⟩ ∧
    i.nodeKey = node ∧ o.spent node = true

theorem sure_running {asked named : String} {generation : Nat} {found left : List Instance}
    {i : Instance} {call : Option WatchCall} {listener : Listener} (ho : o.Attended)
    (hcall : call.getD (.asked i.nodeKey .cache) = .asked named listener)
    (hruns : o.tasks.isRunning (Client.watchTask named) = true)
    (hkeeps : Keeps service node o o)
    (hfits : Search.Fits o.store ⟨.watching asked generation found (i :: left), call⟩)
    (hq : Sure service node o ⟨.watching asked generation found (i :: left), call⟩)
    (hright : ¬Mistaken o node ⟨.watching asked generation found (i :: left), call⟩) :
    Sure service node o ⟨.watching asked generation found left, none⟩ := by
  cases call with
  | some call =>
    obtain rfl : call = .asked named listener := hcall
    exact hfits.elim
  | none =>
    obtain ⟨rfl, rfl⟩ := WatchCall.asked.inj hcall
    rintro rfl
    refine (hq rfl).pass hkeeps fun hnode hnow => ?_
    subst hnode
    refine guarded_of_running ho hruns (Bool.eq_false_iff.2 fun hspent => hright ?_)
    exact ⟨asked, found, i, left, by rw [hnow], rfl, hspent⟩

theorem sure_vacant {asked named : String} {generation : Nat} {found left : List Instance}
    {i : Instance} {call : Option WatchCall} {listener : Listener} (ho : o.Attended)
    (hcall : call.getD (.asked i.nodeKey .cache) = .asked named listener)
    (hruns : o.tasks.isRunning (Client.watchTask named) = false)
    (hfits : Search.Fits o.store ⟨.watching asked generation found (i :: left), call⟩)
    (hq : Sure service node o ⟨.watching asked generation found (i :: left), call⟩) :
    Sure service node o
      ⟨.watching asked generation found (i :: left), some (.vacant named listener)⟩ := by
  cases call with
  | some call =>
    obtain rfl : call = .asked named listener := hcall
    exact hfits.elim
  | none =>
    obtain ⟨rfl, rfl⟩ := WatchCall.asked.inj hcall
    intro hs
    obtain ⟨hnoted, hpart, howned, hwatched, -⟩ := hq hs
    refine ⟨hnoted, hpart, howned, hwatched, fun _ _ hhead => ?_⟩
    obtain rfl := Option.some.inj hhead
    exact unspent_of_vacant ho hruns

/-- **A discovery goes on with what it may rely on.** -/
theorem Seeks.sure {q q' : Search} (h : Seeks o q q' p) (hservice : '/' ∉ service.toList)
    (hgenuine : o.store.Genuine) (ho : o.Attended) (hkeeps : Keeps service node o p)
    (hfits : q.Fits o.store) (hq : Sure service node o q) (hright : ¬Mistaken o node q) :
    Sure service node p q' := by
  cases h with
  | @start asked call =>
    unfold Sure
    simp only [Lookup.look]
    cases o.member.cache.read asked <;> trivial
  | missed => exact fun hs => Nat.le_of_eq (congrArg _ hs)
  | @found asked generation call found s hfound =>
    rintro rfl
    refine ⟨hq rfl, List.suffix_refl _, fun hmem => ?_, fun _ => .inl, fun _ h => by cases h⟩
    obtain ⟨i, hi, rfl⟩ := List.mem_map.1 hmem
    exact serviceOf?_of_under hservice (Client.found_of_discover hgenuine hfound hi)
  | failed hfound => trivial
  | running hcall hruns => exact sure_running ho hcall hruns hkeeps hfits hq hright
  | vacant hcall hruns => exact sure_vacant ho hcall hruns hfits hq
  | listen => exact fun hs => hkeeps.halfway (hq hs)
  | refused hget => trivial
  | @gone asked generation found left i w s hget =>
    rintro rfl
    have hhalf := hq rfl
    refine hhalf.pass hkeeps fun hnode hnow => ?_
    -- The listener was called, and so the generation is not the one that was noted.
    have hnoted := hhalf.noted
    have howned := hhalf.owned (hhalf.part.map Instance.nodeKey |>.subset (by simp [hnode]))
    have hraised : (o.withMember s (o.member.notify w.notice)).generation asked =
        o.generation asked + 1 := by
      show (o.member.notify w.notice).cache.generation asked = _
      rw [cache_notify _ hfits.2.1, hfits.1, hnode, Cache.generation_invalidateNode howned]
      rfl
    omega
  | there hget => exact fun hs => hkeeps.halfway (hq hs)
  | @spawn asked generation found left i w =>
    rintro rfl
    refine (hq rfl).pass hkeeps fun hnode hnow => ?_
    have hunspent := (hq rfl).unspent hnow rfl (by rw [← hnode]; rfl)
    exact hunspent.guarded_spawn ho.orderly ho.started (hfits.1.trans hnode)
  | answered q => exact hfits.elim
  | keep => trivial
  | done => trivial

/-! ### What is always so -/

/-- What is always so of the list of a service and one of its nodes. -/
structure Coherent (service node : String) (o : Outpost) : Prop where
  genuine : o.store.Genuine
  keyed : o.Keyed
  attended : o.Attended
  cached : ∀ found, o.member.cache.read service = some found →
    node ∈ found.map Instance.nodeKey → Tended service node o
  sure : ∀ q ∈ o.searches, Sure service node o q

theorem mistakes_of_mistaken {n : Nat} {q : Search} (hq : o.searches[n]? = some q)
    (h : Mistaken o node q) : o.mistakes node (.search n) = true := by
  obtain ⟨service, found, i, left, rfl, hnode, hspent⟩ := h
  simp [mistakes, hq, hnode, hspent]

/-- **Every action keeps the cache coherent**, but for a discovery that is mistaken. -/
theorem Course.coherent (h : Course o a p) (hservice : '/' ∉ service.toList)
    (hlawful : lawful a = true) (hright : o.mistakes node a = false)
    (ho : Coherent service node o) : Coherent service node p := by
  have hturn := h.turn hlawful ho.keyed
  have hkeeps : Keeps service node o p := (h.shift hlawful ho.attended).keeps ho.attended ho.sure
  have hold : ∀ q ∈ o.searches, Sure service node p q := fun q hq => hkeeps.sure (ho.sure q hq)
  refine ⟨hturn.genuine ho.genuine, h.keyed ho.keyed, h.attended hlawful ho.attended ho.keyed,
    fun found hread hmem => ?_, ?_⟩
  · rcases hkeeps.read found hread hmem with ⟨hbefore, hsame⟩ | htended
    · obtain ⟨howned, hguarded⟩ := ho.cached found hbefore hmem
      exact ⟨howned, hkeeps.guarded hsame howned hguarded⟩
    · exact htended
  · cases h with
    | discover service =>
      intro q hq
      rcases List.mem_append.1 hq with hq | hq
      · exact hold q hq
      · obtain rfl := List.mem_singleton.1 hq
        trivial
    | @search n q q' p hq hseeks =>
      intro q'' hq''
      rcases List.mem_or_eq_of_mem_set hq'' with hq'' | rfl
      · exact hold q'' hq''
      · have hmem := List.mem_of_getElem? hq
        have hkeeps' : Keeps service node o p :=
          (shift_search hmem (ho.attended.fits q hmem) hseeks p.searches).keeps ho.attended ho.sure
        have hsure := hseeks.sure hservice ho.genuine ho.attended hkeeps'
          (ho.attended.fits q hmem) (ho.sure q hmem) fun hmistaken => by
            rw [mistakes_of_mistaken hq hmistaken] at hright
            cases hright
        have hbeside (searches : List Search) :
            Keeps service node p { p with searches := searches } := .of_forgets (.refl _) id id
        exact (hbeside _).sure hsure
    | _ => exact hold

theorem Coherent.run {actions : List Action} (hservice : '/' ∉ service.toList)
    (hlawful : actions.all lawful = true)
    (hright : o.always (fun x a => !x.mistakes node a) actions = true)
    (ho : Coherent service node o) : Coherent service node (o.run actions) := by
  induction actions generalizing o with
  | nil => exact ho
  | cons a rest ih =>
    obtain ⟨ha, hrest⟩ := Bool.and_eq_true_iff.1 hlawful
    obtain ⟨hfirst, hlater⟩ := Bool.and_eq_true_iff.1 hright
    exact ih hrest hlater ((o.course a).coherent hservice ha (by simpa using hfirst) ho)

/-- **Once the watches have heard everything, each instance in the cache has an entry.** -/
theorem Coherent.holds (ho : Coherent service node o) (hcaught : o.caughtUp = true)
    {found : List Instance} (hread : o.member.cache.read service = some found)
    (hmem : node ∈ found.map Instance.nodeKey) : o.store.Holds (recordKey node) := by
  obtain ⟨-, id, w, hphase, rfl, hnew⟩ := ho.cached found hread hmem
  have hwait := List.all_eq_true.1 hcaught _ (TaskSet.mem_active hphase)
  have haware := (ho.attended.attentive id w hphase).2
  refine haware.holds ?_
  simpa [hnew] using hwait

/-! ### Leases -/

/-- Whether the runs of the watches are whole: no discovery takes a step while a watch has called
its listener and has not come to its end. -/
def whole (o : Outpost) : Action → Bool
  | .search _ => o.called.isEmpty
  | _ => true

/-- Whether after some actions the node has an entry. If the store was swept on the way and no
lease was given since that ends at the moment of the sweep, the lease of the entry ends later than
this moment. -/
def Stands (actions : List Action) (node : String) : Prop :=
  ∃ e, (run {} actions).store.entries.find? (recordKey node) = some e ∧
    ∀ before tick after, actions = before ++ tick :: after →
      (run {} before).sweeps tick = true →
      ((run {} before).step tick).always (lasting (run {} before).now) after = true →
      (run {} before).now < e.deadline

/-- The printer that is left is renewed before the store is swept late. -/
def renewed : List Action :=
  [.elapse 20000, .store (.refresh (recordKey (printer 1).nodeKey) 30000), .elapse 15000]

/-- The list is kept, and the watch hears of the printer that is gone. -/
def heard : List Action := [.search 1, .hear 1 8]

/-- The printer is found and kept. It is given up and registered anew, and its watch has called the
cache but not come to its end when it is found again. -/
def amid : List Action :=
  [.record (printer 1) 30000, .init {}, .discover "Printer:1.0",
    .search 0, .search 0, .search 0, .search 0, .search 0, .search 0, .search 0, .search 0,
    .store (.delete (recordKey (printer 1).nodeKey)), .record (printer 1) 30000, .hear 1 8,
    .discover "Printer:1.0", .search 1, .search 1, .search 1]

/-- The discovery leaves it to this watch. Then the printer is given up for good. -/
def leftToIt : List Action :=
  [.search 1, .search 1, .conclude 1, .store (.delete (recordKey (printer 1).nodeKey))]

/-- **A watch that has called its listener watches nothing any more**, and a discovery that leaves
a node to it leaves the node to nobody. -/
theorem mistaken_stays :
    (amid ++ leftToIt).all lawful = true ∧
      (run {} amid).mistakes (printer 1).nodeKey (.search 1) = true ∧
      (run {} (amid ++ leftToIt)).caughtUp = true ∧
      (run {} (amid ++ leftToIt)).member.cache.read "Printer:1.0" = some [printer 1] ∧
      (run {} (amid ++ leftToIt)).store.entries.find? (recordKey (printer 1).nodeKey) = none := by
  decide +kernel

end Outpost
end RemoteCall.Registry
