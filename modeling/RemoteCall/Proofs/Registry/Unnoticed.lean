import RemoteCall.Proofs.Registry.Minds
import RemoteCall.Proofs.Registry.Standing

/-! Watches that a cache does not notice.

A consumer discovers through its cache while others provide, and now and then somebody outside
asks it to watch a node for him. Two runs that differ in nothing but such watches go the same way
for the consumer and for the providers (`direct_watches_unnoticed`): what everybody can see of the
store is the same, and so is what the cache goes by (`Same`). Only two things are asked of a run
(`calm`). A watch for the cache takes all there is of its node when it runs; and no discovery
comes to a node that is being watched for somebody outside. Such a discovery gets no watch for
the cache, for one watch runs at a time for a node, and the cache keeps what is gone
(`direct_watch_leaves_stale`). -/
namespace RemoteCall.Registry
namespace Traffic
open Store (Alike)

/-! ### Runs -/

/-- Whether a client is asked to watch a node for somebody outside. -/
def Move.direct (me : String) : Move → Bool
  | .world (.watch name _ _) => name = me
  | _ => false

/-- Whether a move is one of a consumer and of others who only provide, leaves none of the
consumer's watches behind, and brings no discovery to a node that is watched for somebody
outside. -/
def calm (me : String) (x : Traffic) : Move → Bool
  | .world (.watch name _ _) | .discover name _ => name = me
  | .hear name key count => name ≠ me ||
    ((((x.member me).client.tasks.at? key).bind Job.vigil?).all
      (·.hearsOut x.world.store.events count))
  | .goOn n => (x.lookups[n]?).all fun (name, l) => !l.stuck (x.member name).client
  | _ => true

/-- Two states in which everybody can see the same, and the cache of a consumer goes by the
same. -/
structure Same (me : String) (x y : Traffic) : Prop where
  left : x.Orderly
  right : y.Orderly
  standing : ∀ node, x.standing node = y.standing node
  sweeper : ∀ name, (x.member name).client.sweeper = (y.member name).client.sweeper
  lookups : x.lookups = y.lookups
  mine : ∀ p ∈ x.lookups, p.1 = me
  minds : Minds x.world.store y.world.store (x.member me) (y.member me)

namespace Same
variable {me name : String} {x y : Traffic} {move : Move} {s t : Store} {c d : CachedClient}

theorem empty (me : String) : Same me {} {} where
  left := orderly_empty
  right := orderly_empty
  standing _ := rfl
  sweeper _ := rfl
  lookups := rfl
  mine _ h := by cases h
  minds := ⟨rfl, fun _ => Iff.rfl, fun _ _ _ h => by cases h⟩

theorem symm (h : Same me x y) : Same me y x where
  left := h.right
  right := h.left
  standing node := (h.standing node).symm
  sweeper name := (h.sweeper name).symm
  lookups := h.lookups.symm
  mine p hp := h.mine p (h.lookups ▸ hp)
  minds := h.minds.symm

/-! What everybody can see. -/

theorem now (h : Same me x y) : x.world.now = y.world.now := congrArg Standing.now (h.standing "")

theorem available (h : Same me x y) : x.world.store.available = y.world.store.available :=
  congrArg Standing.available (h.standing "")

theorem live (h : Same me x y) (node : String) :
    x.world.store.live? x.world.now (recordKey node) =
      y.world.store.live? x.world.now (recordKey node) := by
  have hrecord := congrArg Standing.record (h.standing node)
  exact hrecord.trans (congrArg (y.world.store.live? · (recordKey node)) h.now.symm)

theorem akin (h : Same me x y) (name : String) :
    Client.Akin (x.member name).client (y.member name).client where
  config := congrArg (fun p : Standing => (p.keepers name).config) (h.standing "")
  own := by
    refine Dict.Sorted.ext (h.left.members name).own (h.right.members name).own fun node i => ?_
    rw [(h.left.members name).own.mem_iff, (h.right.members name).own.mem_iff]
    have hown := congrArg (fun p : Standing => (p.keepers name).own) (h.standing node)
    exact iff_of_eq (congrArg (· = some i) hown)
  sweeper := h.sweeper name
  beat := congrArg (fun p : Standing => (p.keepers name).beat) (h.standing "")

/-! ### What is done in both -/

/-- The same client does something in both states. -/
theorem deed (h : Same me x y) (hx : Deed x name s c (x.play move))
    (hy : Deed y name t d (y.play move)) (hlookups : (x.play move).lookups = (y.play move).lookups)
    (hmine : ∀ p ∈ (x.play move).lookups, p.1 = me)
    (hsweeper : c.client.sweeper = d.client.sweeper)
    (hminds : Minds s t (if me = name then c else x.member me)
      (if me = name then d else y.member me)) :
    Same me (x.play move) (y.play move) where
  left := h.left.play move
  right := h.right.play move
  standing node := by
    rw [standing_play h.left, standing_play h.right, h.standing]
  sweeper other := by
    rw [hx.member, hy.member]
    split
    · exact hsweeper
    · exact h.sweeper other
  lookups := hlookups
  mine := hmine
  minds := by
    rw [hx.store, hy.store, hx.member, hy.member]
    exact hminds

/-- The same is done to both stores, and the client changes in no watch. -/
theorem done (h : Same me x y) (hx : Deed x name s c (x.play move))
    (hy : Deed y name t d (y.play move)) (hl : (x.play move).lookups = x.lookups)
    (hl' : (y.play move).lookups = y.lookups)
    (hstore : ∀ key m n, Alike key m n x.world.store y.world.store → Alike key m n s t)
    (hsweeper : c.client.sweeper = d.client.sweeper)
    (hcache : (x.member name).cache = (y.member name).cache → c.cache = d.cache)
    (hvigil : ∀ node, c.client.vigil node = (x.member name).client.vigil node)
    (hvigil' : ∀ node, d.client.vigil node = (y.member name).client.vigil node) :
    Same me (x.play move) (y.play move) := by
  refine h.deed hx hy (by rw [hl, hl', h.lookups]) (by rw [hl]; exact h.mine) hsweeper ?_
  have hminds := h.minds.mono hstore
  split
  · next heq =>
    subst heq
    exact hminds.congr (hcache h.minds.cache) hvigil hvigil'
  · exact hminds

theorem lookups_world (x : Traffic) (a : World.Action) :
    (x.play (.world a)).lookups = x.lookups := by
  show (if inOneGo a then _ else x : Traffic).lookups = _
  split <;> rfl

theorem play_world (h : Same me x y) (a : World.Action)
    (hdirect : Move.direct me (.world a) = false)
    (hcalm : calm me x (.world a) = true) :
    Same me (x.play (.world a)) (y.play (.world a)) := by
  have hl := lookups_world x a
  have hl' := lookups_world y a
  have hnow := h.now
  cases a with
  | store op =>
    refine h.done (deed_store x "" _) (deed_store y "" _) hl hl' (fun key m n halike => ?_)
      (h.sweeper "") id (fun _ => rfl) fun _ => rfl
    rw [← hnow]
    exact halike.apply h.left.store h.right.store op
  | advance ms => exact h
  | sleep ms => exact h
  | discover name service => exact h
  | init name config =>
    refine h.done (deed_withMember x name _ _) (deed_withMember y name _ _) hl hl'
      (fun _ _ _ => id) ?_ id ((h.left.members name).vigil_init config)
      ((h.right.members name).vigil_init config)
    rw [← hnow]
    exact (h.akin name).sweeper_init (h.left.members name) (h.right.members name) config
  | register name i =>
    refine h.done (deed_withMember x name _ _) (deed_withMember y name _ _) hl hl'
      (fun key m n halike => ?_) ?_ id (Client.vigil_register _ _ _ i) (Client.vigil_register _ _ _ i)
    · rw [← hnow]
      exact Client.alike_register halike (h.akin name).config i
    · exact (Client.sweeper_register _ _ _ i).trans
        ((h.sweeper name).trans (Client.sweeper_register _ _ _ i).symm)
  | unregister name i =>
    have hvigil (c : CachedClient) (s : Store) (now : Nat) (node : String) :
        (c.unregister s now i).2.2.client.vigil node = c.client.vigil node := by
      rw [client_unregister]
      rfl
    have hsweeper (c : CachedClient) (s : Store) (now : Nat) :
        (c.unregister s now i).2.2.client.sweeper = c.client.sweeper := by
      rw [client_unregister]
      rfl
    refine h.done (deed_withMember x name _ _) (deed_withMember y name _ _) hl hl'
      (fun key m n halike => ?_) ?_ (fun hcache => ?_) (hvigil _ _ _) (hvigil _ _ _)
    · rw [← hnow, store_unregister, store_unregister]
      exact halike.delete _
    · rw [hsweeper, hsweeper]
      exact h.sweeper name
    · replace hcache : (x.world.member name).cache = (y.world.member name).cache := hcache
      rw [cache_unregister, cache_unregister, hcache, h.available]
  | ask name service =>
    refine h.done (deed_store x name _) (deed_store y name _) hl hl' (fun key m n halike => ?_)
      (h.sweeper name) id (fun _ => rfl) fun _ => rfl
    rw [← hnow]
    exact Client.alike_discover halike h.left.store h.right.store service
  | heartBeat name =>
    refine h.done (deed_withMember x name _ _) (deed_withMember y name _ _) hl hl'
      (fun _ _ _ => id) ?_ id (h.left.members name).vigil_heartBeat
      (h.right.members name).vigil_heartBeat
    exact (h.left.members name).sweeper_heartBeat.trans
      ((h.sweeper name).trans (h.right.members name).sweeper_heartBeat.symm)
  | renew name =>
    refine h.done (deed_store x name _) (deed_store y name _) hl hl' (fun key m n halike => ?_)
      (h.sweeper name) id (fun _ => rfl) fun _ => rfl
    rw [← hnow]
    exact Client.alike_renew halike (h.akin name).config (h.akin name).own
  | watch name node tag =>
    -- A watch in both states is one for somebody outside.
    have hname : name = me := of_decide_eq_true hcalm
    exact absurd hname (of_decide_eq_false hdirect)
  | clearCache name =>
    exact h.done (deed_withMember x name _ _) (deed_withMember y name _ _) hl hl'
      (fun _ _ _ => id) (h.sweeper name) (congrArg Cache.clear) (fun _ => rfl) fun _ => rfl
  | destroy name =>
    have hc := h.left.members name
    have hd := h.right.members name
    have hsweeper := (hc.sweeper_destroy x.world.store x.world.now).trans
      (hd.sweeper_destroy y.world.store y.world.now).symm
    refine h.deed (deed_withMember x name _ _) (deed_withMember y name _ _)
      (by rw [hl, hl', h.lookups])
      (by rw [hl]; exact h.mine) hsweeper ?_
    split
    · next heq =>
      subst heq
      have hnone := hc.vigil_destroy x.world.store x.world.now
      have hnone' := hd.vigil_destroy y.world.store y.world.now
      refine ⟨congrArg Cache.clear h.minds.cache, fun node => ?_, fun node v w hv _ => ?_⟩
      · exact iff_of_true (hnone node) (hnone' node)
      · cases (hnone node).symm.trans hv
    · refine h.minds.mono fun key m n halike => ?_
      rw [← hnow]
      have hown : (x.world.member name).client.own = (y.world.member name).client.own :=
        (h.akin name).own
      show Alike key m n (Client.takenBack _ _ _) (Client.takenBack _ _ _)
      rw [hown]
      exact Client.alike_takenBack halike _

/-- Nothing happens but to discoveries of the consumer. -/
theorem lookup (h : Same me x y) (lookups : List (String × Lookup))
    (hmine : ∀ p ∈ lookups, p.1 = me) :
    Same me { x with lookups := lookups } { y with lookups := lookups } where
  left := ⟨h.left.store, h.left.members⟩
  right := ⟨h.right.store, h.right.members⟩
  standing := h.standing
  sweeper := h.sweeper
  lookups := rfl
  mine := hmine
  minds := h.minds

theorem mine_set (h : Same me x y) (n : Nat) (l : Lookup) :
    ∀ p ∈ x.lookups.set n (me, l), p.1 = me := by
  intro p hp
  rcases List.mem_or_eq_of_mem_set hp with hold | rfl
  · exact h.mine p hold
  · rfl

theorem lookups_due (x : Traffic) (name key : String) :
    (x.play (.due name key)).lookups = x.lookups := by
  show (x.due name _).lookups = _
  unfold due
  split <;> rfl

theorem lookups_hear (x : Traffic) (name key : String) (count : Nat) :
    (x.play (.hear name key count)).lookups = x.lookups := by
  show (x.hear name _ count).lookups = _
  unfold hear
  split <;> rfl

theorem sweeper_step (hc : c.client.Orderly) (l : Lookup) (s : Store) (now : Nat) :
    (l.step c s now).2.2.client.sweeper = c.client.sweeper := by
  rcases l.client_step c s now with hsame | ⟨node, hwatch⟩
  · rw [hsame]
  · rw [hwatch]
    exact hc.sweeper_watch node .cache

theorem play_due (h : Same me x y) (name key : String) :
    Same me (x.play (.due name key)) (y.play (.due name key)) := by
  have hc := h.left.members name
  have hd := h.right.members name
  refine h.done (deed_due x name key) (deed_due y name key) (lookups_due x name key)
    (lookups_due y name key) (fun task m n halike => ?_) ?_ id (hc.vigil_due key) (hd.vigil_due key)
  · rw [← h.now]
    exact Client.alike_due halike h.left.store h.right.store (h.akin name) hc hd key
  · rw [← h.now]
    exact (h.akin name).sweeper_due hc hd key

theorem play_hear (h : Same me x y) (name key : String) (count : Nat)
    (hx : calm me x (.hear name key count) = true) (hy : calm me y (.hear name key count) = true) :
    Same me (x.play (.hear name key count)) (y.play (.hear name key count)) := by
  have hc := h.left.members name
  have hd := h.right.members name
  refine h.deed (deed_hear x name key count) (deed_hear y name key count) ?_ ?_ ?_ ?_
  · rw [lookups_hear, lookups_hear, h.lookups]
  · rw [lookups_hear]
    exact h.mine
  · rw [client_notify, client_notify]
    exact (hc.sweeper_listen key count).trans
      ((h.sweeper name).trans (hd.sweeper_listen key count).symm)
  · split
    · next heq =>
      subst heq
      have hhears := (Bool.or_eq_true_iff.1 hx).resolve_left (by simp)
      have hhears' := (Bool.or_eq_true_iff.1 hy).resolve_left (by simp)
      exact h.minds.listen hc hd key count hhears hhears'
    · exact h.minds

theorem play_goOn (h : Same me x y) (n : Nat) (hx : calm me x (.goOn n) = true)
    (hy : calm me y (.goOn n) = true) : Same me (x.play (.goOn n)) (y.play (.goOn n)) := by
  cases hlookup : x.lookups[n]? with
  | none =>
    rw [play_goOn_of_none hlookup, play_goOn_of_none (h.lookups ▸ hlookup)]
    exact h
  | some p =>
    obtain ⟨name, l⟩ := p
    obtain rfl : name = me := h.mine _ (List.mem_of_getElem? hlookup)
    have hlookup' : y.lookups[n]? = some (name, l) := h.lookups ▸ hlookup
    have hc := h.left.members name
    have hd := h.right.members name
    have hstuck : l.stuck (x.member name).client = false := by simpa [calm, hlookup] using hx
    have hstuck' : l.stuck (y.member name).client = false := by simpa [calm, hlookup'] using hy
    obtain ⟨hresult, hminds⟩ := h.minds.step hc hd h.left.store h.right.store h.available h.live l
      hstuck hstuck'
    have hset : (x.play (.goOn n)).lookups =
        x.lookups.set n (name, (l.step (x.member name) x.world.store x.world.now).1) := by
      rw [play_goOn_of_some hlookup]
      rfl
    refine h.deed (deed_goOn hlookup) (deed_goOn hlookup') ?_ ?_ ?_ ?_
    · rw [hset, hresult, play_goOn_of_some hlookup', h.lookups, h.now]
      rfl
    · rw [hset]
      exact h.mine_set n _
    · rw [sweeper_step hc, sweeper_step hd]
      exact h.sweeper name
    · rw [if_pos rfl, if_pos rfl, ← h.now]
      exact hminds

/-- **What is done in both states leaves them the same.** -/
theorem play (h : Same me x y) (hdirect : move.direct me = false) (hx : calm me x move = true)
    (hy : calm me y move = true) : Same me (x.play move) (y.play move) := by
  cases move with
  | world a => exact h.play_world a hdirect hx
  | elapse ms =>
    exact {
      left := h.left.play (.elapse ms)
      right := h.right.play (.elapse ms)
      standing := fun node => by rw [standing_play h.left, standing_play h.right, h.standing]
      sweeper := h.sweeper
      lookups := h.lookups
      mine := h.mine
      minds := h.minds }
  | due name key => exact h.play_due name key
  | hear name key count => exact h.play_hear name key count hx hy
  | discover name service =>
    have hlookup := h.lookup (x.lookups ++ [(name, .start service)]) fun p hp => ?_
    · show Same me { x with lookups := x.lookups ++ [(name, .start service)] }
        { y with lookups := y.lookups ++ [(name, .start service)] }
      rwa [← h.lookups]
    · rcases List.mem_append.1 hp with hold | hnew
      · exact h.mine p hold
      · obtain rfl := List.mem_singleton.1 hnew
        exact of_decide_eq_true hx
  | look n =>
    cases hlookup : x.lookups[n]? with
    | none =>
      rw [play_look_of_none hlookup, play_look_of_none (h.lookups ▸ hlookup)]
      exact h
    | some p =>
      obtain ⟨name, l⟩ := p
      obtain rfl : name = me := h.mine _ (List.mem_of_getElem? hlookup)
      rw [play_look_of_some hlookup, play_look_of_some (h.lookups ▸ hlookup), setLookup, setLookup,
        ← h.lookups, ← Lookup.look_congr h.minds.cache]
      exact h.lookup _ (h.mine_set n _)
  | goOn n => exact h.play_goOn n hx hy

/-! ### What is done in one -/

/-- **A watch for somebody outside leaves the state the same.** -/
theorem direct_left (h : Same me x y) (hdirect : move.direct me = true) :
    Same me (x.play move) y := by
  cases move with
  | world a =>
    cases a with
    | watch name node tag =>
      obtain rfl : name = me := of_decide_eq_true hdirect
      have hc := h.left.members name
      have hdeed : Deed x name
          ((x.member name).watch x.world.store x.world.now node (.outside tag)).2.1
          ((x.member name).watch x.world.store x.world.now node (.outside tag)).2.2
          (x.play (.world (.watch name node tag))) := deed_withMember x name _ _
      refine ⟨h.left.play _, h.right, fun other => ?_, fun other => ?_, ?_, ?_, ?_⟩
      · rw [standing_play h.left]
        exact h.standing other
      · rw [hdeed.member]
        split
        · next heq =>
          rw [heq, client_watch, hc.sweeper_watch]
          exact h.sweeper name
        · exact h.sweeper other
      · rw [lookups_world]
        exact h.lookups
      · rw [lookups_world]
        exact h.mine
      · rw [hdeed.store, hdeed.member, if_pos rfl]
        exact h.minds.watch_left hc tag
    | _ => cases hdirect
  | _ => cases hdirect

/-- Two runs that differ in nothing but watches for somebody outside. -/
theorem plays (h : Same me x y) {as bs : List Move} (has : always (calm me) x as = true)
    (hbs : always (calm me) y bs = true)
    (hsame : as.filter (fun move => !move.direct me) = bs.filter fun move => !move.direct me) :
    Same me (x.plays as) (y.plays bs) := by
  induction as generalizing x y bs with
  | nil =>
    induction bs generalizing y with
    | nil => exact h
    | cons b bs ih =>
      have hb : b.direct me = true := by
        by_contra hb
        rw [List.filter_cons_of_pos (by simpa using hb)] at hsame
        cases hsame
      rw [List.filter_cons_of_neg (by simp [hb])] at hsame
      exact ih (h.symm.direct_left hb).symm (Bool.and_eq_true_iff.1 hbs).2 hsame
  | cons a as ih =>
    cases ha : a.direct me with
    | true =>
      rw [List.filter_cons_of_neg (by simp [ha])] at hsame
      exact ih (h.direct_left ha) (Bool.and_eq_true_iff.1 has).2 hbs hsame
    | false =>
      induction bs generalizing y with
      | nil =>
        rw [List.filter_cons_of_pos (by simp [ha])] at hsame
        cases hsame
      | cons b bs ihb =>
        obtain ⟨hb, hrest⟩ := Bool.and_eq_true_iff.1 hbs
        cases hdirect : b.direct me with
        | true =>
          rw [List.filter_cons_of_neg (p := fun move => !move.direct me) (a := b)
            (by simp [hdirect])] at hsame
          exact ihb (h.symm.direct_left hdirect).symm hrest hsame
        | false =>
          rw [List.filter_cons_of_pos (by simp [ha]), List.filter_cons_of_pos (by simp [hdirect])]
            at hsame
          obtain ⟨rfl, hothers⟩ := List.cons.inj hsame
          obtain ⟨hfirst, has⟩ := Bool.and_eq_true_iff.1 has
          exact ih (h.play ha hfirst hb) has hrest hothers

end Same

/-- **A cache does not notice for whom else its client watches.** Two runs of a consumer and of
many providers that differ in nothing but watches that somebody outside asked the consumer for
bring every discovery to the same answer and leave the same in the cache, and everybody can see
the same in the store. -/
theorem direct_watches_unnoticed {me : String} {as bs : List Move}
    (has : always (calm me) {} as = true) (hbs : always (calm me) {} bs = true)
    (hsame : as.filter (fun move => !move.direct me) = bs.filter fun move => !move.direct me) :
    let x := plays {} as
    let y := plays {} bs
    x.lookups = y.lookups ∧ (x.member me).cache = (y.member me).cache ∧
      ∀ node, x.standing node = y.standing node := by
  intro x y
  have h : Same me x y := (Same.empty me).plays has hbs hsame
  exact ⟨h.lookups, h.minds.cache, h.standing⟩

/-! ### Cases -/

/-- What the discoveries have come to, as far as they were answered. -/
def answers (x : Traffic) : List (Option (List Instance)) :=
  x.lookups.map fun (_, l) =>
    match l with
    | .done result => result.toOption
    | _ => none

/-- A desk looks for printers, and takes its time. -/
def deskLooks (n : Nat) : List Move :=
  [.discover "desk" "Printer:1.0", .goOn n, .goOn n, .goOn n, .goOn n]

/-- The printer is taken away, the desk hears of it and looks again. -/
def printerGoes : List Move :=
  [.world (.unregister "office" (printer 1)), .world (.store .sweep),
    .hear "desk" (Client.watchTask (printer 1).nodeKey) 8] ++ deskLooks 1

def copier : Instance := { printer 2 with name := "Copier" }

/-- The desk has found the printer, and the lease of a copier has ended, when somebody comes with
requests. -/
def deskAsked (requests : List Move) : List Move :=
  [.world (.init "office" {}), .world (.register "office" (printer 1)),
    .world (.register "office" copier), .world (.init "desk" {})] ++ deskLooks 0 ++
  [.elapse 20000, .world (.register "office" (printer 1)), .elapse 10000] ++ requests ++ printerGoes

/-- A clerk asks for watches of the copier and of the printer. -/
def clerk : List Move :=
  [.world (.watch "desk" copier.nodeKey "clerk"),
    .world (.watch "desk" (printer 1).nodeKey "clerk")]

/-- The store announces the end of the copier earlier for the clerk's sake, and the desk finds
what it would have found without. -/
theorem direct_watches_unnoticed_clerk :
    let x := plays {} (deskAsked clerk)
    let y := plays {} (deskAsked [])
    x.world.store.events ≠ y.world.store.events ∧ x.lookups = y.lookups ∧
      (x.member "desk").cache = (y.member "desk").cache ∧ answers x = [some [printer 1], some []] := by
  have hx : always (calm "desk") {} (deskAsked clerk) = true := by decide +kernel
  have hy : always (calm "desk") {} (deskAsked []) = true := by decide +kernel
  have hsame : (deskAsked clerk).filter (fun move => !move.direct "desk") =
      (deskAsked []).filter fun move => !move.direct "desk" := by rfl
  obtain ⟨hlookups, hcache, -⟩ := direct_watches_unnoticed hx hy hsame
  exact ⟨by decide +kernel, hlookups, hcache, by decide +kernel⟩

/-- The requests come before the desk has looked for printers. -/
def askedFirst (requests : List Move) : List Move :=
  [.world (.init "office" {}), .world (.register "office" (printer 1)), .world (.init "desk" {})] ++
  requests ++ deskLooks 0 ++ printerGoes

/-- **A watch that somebody outside asked for first leaves the cache without one.** The desk goes
on to find a printer that is gone, and without the request it would not. -/
theorem direct_watch_leaves_stale :
    let request : Move := .world (.watch "desk" (printer 1).nodeKey "clerk")
    (askedFirst [request]).filter (fun move => !move.direct "desk") = askedFirst [] ∧
      answers (plays {} (askedFirst [request])) = [some [printer 1], some [printer 1]] ∧
      answers (plays {} (askedFirst [])) = [some [printer 1], some []] := by
  exact ⟨by rfl, by decide +kernel, by decide +kernel⟩

end Traffic
end RemoteCall.Registry
