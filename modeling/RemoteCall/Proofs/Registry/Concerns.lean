import RemoteCall.Proofs.Registry.Standing

/-! Whom a node concerns.

Most moves do not concern a node that is left to some of the clients: they leave it as it stands
(`LeftTo.idle`). And to those that do it makes no difference how the node stands to the other
clients (`SameFor.play`). So the standing of a node is the same after any two runs of moves that
differ only in what does not concern it. -/
namespace RemoteCall.Registry

open Traffic (Move)

namespace Traffic.Move

/-- Whether a move may have a bearing on a node that some clients look after. -/
def concerns (clients : String → Bool) (node : String) : Move → Bool
  | .elapse _ | .world (.store (.setAvailable _)) => true
  | .world (.store (.put key _ _)) | .world (.store (.refresh key _))
  | .world (.store (.delete key)) => recordKey node = key
  | .world (.register _ i) | .world (.unregister _ i) => node = i.nodeKey
  | .world (.init name _) | .world (.heartBeat name) | .world (.renew name)
  | .world (.destroy name) => clients name
  | .due name key => clients name && key = Client.heartbeatTask
  | _ => false

/-- Whether a move registers an instance at a node for nobody but some clients. -/
def registersFor (clients : String → Bool) (node : String) : Move → Bool
  | .world (.register name i) => clients name || node ≠ i.nodeKey
  | _ => true

end Traffic.Move

namespace Standing
variable {clients : String → Bool} {node name : String} {p q : Standing} {move : Move}

/-- Whether nobody but some clients looks after a node. -/
def LeftTo (clients : String → Bool) (p : Standing) : Prop :=
  ∀ name, clients name = false → (p.keepers name).own = none

/-- Two standings are the same to some clients. -/
structure SameFor (clients : String → Bool) (p q : Standing) : Prop where
  now : p.now = q.now
  available : p.available = q.available
  record : p.record = q.record
  keepers : ∀ name, clients name = true → p.keepers name = q.keepers name

theorem SameFor.refl (p : Standing) : SameFor clients p p := ⟨rfl, rfl, rfl, fun _ _ => rfl⟩

theorem SameFor.symm (h : SameFor clients p q) : SameFor clients q p :=
  ⟨h.now.symm, h.available.symm, h.record.symm, fun name hname => (h.keepers name hname).symm⟩

theorem SameFor.trans {r : Standing} (h : SameFor clients p q) (h' : SameFor clients q r) :
    SameFor clients p r :=
  ⟨h.now.trans h'.now, h.available.trans h'.available, h.record.trans h'.record,
    fun name hname => (h.keepers name hname).trans (h'.keepers name hname)⟩

/-- What a client has to do with the node changes, and the record. -/
theorem SameFor.set (h : SameFor clients p q) {k k' : Keeper} {record record' : Option Entry}
    (hkeeper : clients name = true → k = k') (hrecord : record = record') :
    SameFor clients { p.setKeeper name k with record := record }
      { q.setKeeper name k' with record := record' } where
  now := h.now
  available := h.available
  record := hrecord
  keepers other hother := by
    show (if other = name then k else p.keepers other) = if other = name then k' else q.keepers other
    split
    · next heq => exact hkeeper (heq ▸ hother)
    · exact h.keepers other hother

theorem SameFor.setKeeper (h : SameFor clients p q) {k k' : Keeper}
    (hkeeper : clients name = true → k = k') :
    SameFor clients (p.setKeeper name k) (q.setKeeper name k') :=
  h.set hkeeper h.record

/-- A client whom nobody asks for changes. -/
theorem sameFor_set (hname : clients name = false) (k : Keeper) {record : Option Entry}
    (hrecord : record = p.record) :
    SameFor clients p { p.setKeeper name k with record := record } where
  now := rfl
  available := rfl
  record := hrecord.symm
  keepers other hother := by
    refine (if_neg ?_).symm
    rintro rfl
    rw [hname] at hother
    cases hother

/-! ### Moves that do not concern a node -/

theorem LeftTo.renewal (h : p.LeftTo clients) (hname : clients name = false) (ttl : Nat) :
    p.renewal name ttl = p.record := by
  rw [Standing.renewal, h name hname]
  cases p.available <;> rfl

theorem LeftTo.beat (h : p.LeftTo clients) (hname : clients name = false) :
    SameFor clients p (p.beat name) := by
  unfold Standing.beat
  split
  · split
    · exact .refl p
    · split
      · exact sameFor_set hname _ rfl
      · exact sameFor_set hname _ (h.renewal hname _)
  · exact .refl p

/-- **What does not concern a node leaves it as it stands.** -/
theorem LeftTo.idle (h : p.LeftTo clients) (hmove : move.concerns clients node = false) :
    SameFor clients p (p.play node move) := by
  cases move with
  | elapse ms => cases hmove
  | hear name key count => exact .refl p
  | discover name service => exact .refl p
  | look n => exact .refl p
  | goOn n => exact .refl p
  | due name key =>
    rw [Standing.play]
    split
    · next hkey =>
      refine h.beat ?_
      simpa [Move.concerns, hkey] using hmove
    · exact .refl p
  | world a =>
    cases a with
    | store op =>
      rw [Standing.play]
      cases op with
      | put key value ttl =>
        rw [apply, if_neg fun hboth => of_decide_eq_false hmove hboth.2]
        exact .refl p
      | refresh key ttl =>
        rw [apply, if_neg fun hboth => of_decide_eq_false hmove hboth.2]
        exact .refl p
      | delete key =>
        rw [apply, if_neg fun hboth => of_decide_eq_false hmove hboth.2]
        exact .refl p
      | setAvailable available => cases hmove
      | get key => exact .refl p
      | scan root => exact .refl p
      | sweep => exact .refl p
    | init name config => exact sameFor_set hmove _ rfl
    | register name i =>
      rw [Standing.play]
      rw [if_neg (of_decide_eq_false hmove)]
      exact .refl p
    | unregister name i =>
      rw [Standing.play]
      rw [if_neg (of_decide_eq_false hmove)]
      exact .refl p
    | heartBeat name =>
      rw [Standing.play, Standing.heartBeat]
      split
      · exact sameFor_set hmove _ rfl
      · exact .refl p
    | renew name =>
      rw [Standing.play, Standing.renew]
      split
      · rw [h.renewal hmove]
        exact .refl p
      · exact .refl p
    | destroy name =>
      refine sameFor_set hmove _ (if_neg ?_)
      rw [h name hmove]
      exact fun hboth => Bool.false_ne_true hboth.2
    | advance ms => exact .refl p
    | sleep ms => exact .refl p
    | discover name service => exact .refl p
    | ask name service => exact .refl p
    | watch name watched tag => exact .refl p
    | clearCache name => exact .refl p

/-! ### Moves that do -/

section Same
variable (h : SameFor clients p q) (hname : clients name = true)
include h hname

theorem SameFor.renewal (ttl : Nat) : p.renewal name ttl = q.renewal name ttl := by
  rw [Standing.renewal, Standing.renewal, h.now, h.available, h.record, h.keepers name hname]

theorem SameFor.register (i : Instance) :
    SameFor clients (p.register name i) (q.register name i) := by
  unfold Standing.register
  rw [h.keepers name hname, h.available]
  split
  · exact h.set (fun _ => rfl) (by rw [h.now])
  · exact h

theorem SameFor.heartBeat : SameFor clients (p.heartBeat name) (q.heartBeat name) := by
  unfold Standing.heartBeat
  rw [h.keepers name hname, h.now]
  split
  · exact h.setKeeper fun _ => rfl
  · exact h

theorem SameFor.renew : SameFor clients (p.renew name) (q.renew name) := by
  unfold Standing.renew
  rw [h.keepers name hname]
  split
  · exact ⟨h.now, h.available, h.renewal hname _, h.keepers⟩
  · exact h

theorem SameFor.beat : SameFor clients (p.beat name) (q.beat name) := by
  unfold Standing.beat
  rw [h.keepers name hname, h.now]
  split
  · split
    · exact h
    · split
      · exact h.setKeeper fun _ => rfl
      · exact h.set (fun _ => rfl) (h.renewal hname _)
  · exact h

theorem SameFor.destroy : SameFor clients (p.destroy name) (q.destroy name) := by
  unfold Standing.destroy
  rw [h.keepers name hname, h.available, h.record]
  exact h.set (fun _ => rfl) rfl

end Same

theorem SameFor.unregister (h : SameFor clients p q) (name : String) :
    SameFor clients (p.unregister name) (q.unregister name) := by
  unfold Standing.unregister
  rw [h.available, h.record]
  exact h.set (fun hname => by rw [h.keepers name hname]) rfl

theorem SameFor.apply (h : SameFor clients p q) (node : String) (op : Store.Op) :
    SameFor clients (p.apply node op) (q.apply node op) := by
  unfold Standing.apply
  rw [h.available, h.record, h.now]
  cases op with
  | put key value ttl =>
    dsimp only
    split
    · exact ⟨rfl, rfl, rfl, h.keepers⟩
    · exact h
  | refresh key ttl =>
    dsimp only
    split
    · exact ⟨rfl, rfl, rfl, h.keepers⟩
    · exact h
  | delete key =>
    dsimp only
    split
    · exact ⟨rfl, rfl, rfl, h.keepers⟩
    · exact h
  | setAvailable available => exact ⟨rfl, rfl, rfl, h.keepers⟩
  | get key => exact h
  | scan root => exact h
  | sweep => exact h

/-- **How a node stands to other clients makes no difference to those it is left to.** -/
theorem SameFor.play (h : SameFor clients p q) (hp : p.LeftTo clients) (hq : q.LeftTo clients)
    (hmove : move.registersFor clients node = true) :
    SameFor clients (p.play node move) (q.play node move) := by
  cases hconcerns : move.concerns clients node with
  | false => exact ((hp.idle hconcerns).symm.trans h).trans (hq.idle hconcerns)
  | true =>
    cases move with
    | elapse ms =>
      rw [Standing.play, Standing.play]
      rw [h.now, h.record]
      exact ⟨rfl, h.available, rfl, h.keepers⟩
    | hear name key count => cases hconcerns
    | discover name service => cases hconcerns
    | look n => cases hconcerns
    | goOn n => cases hconcerns
    | due name key =>
      obtain ⟨hname, hkey⟩ := Bool.and_eq_true_iff.1 hconcerns
      rw [Standing.play, Standing.play]
      rw [if_pos (of_decide_eq_true hkey), if_pos (of_decide_eq_true hkey)]
      exact h.beat hname
    | world a =>
      cases a with
      | store op => exact h.apply node op
      | init name config =>
        rw [Standing.play, Standing.play]
        rw [h.keepers name hconcerns]
        exact h.setKeeper fun _ => rfl
      | register name i =>
        have hnode : node = i.nodeKey := of_decide_eq_true hconcerns
        have hname : clients name = true := by
          simpa [Move.registersFor, hnode] using hmove
        rw [Standing.play, Standing.play]
        rw [if_pos hnode, if_pos hnode]
        exact h.register hname i
      | unregister name i =>
        have hnode : node = i.nodeKey := of_decide_eq_true hconcerns
        rw [Standing.play, Standing.play]
        rw [if_pos hnode, if_pos hnode]
        exact h.unregister name
      | heartBeat name => exact h.heartBeat hconcerns
      | renew name => exact h.renew hconcerns
      | destroy name => exact h.destroy hconcerns
      | advance ms => cases hconcerns
      | sleep ms => cases hconcerns
      | discover name service => cases hconcerns
      | ask name service => cases hconcerns
      | watch name watched tag => cases hconcerns
      | clearCache name => cases hconcerns

/-! ### Who registered an instance -/

theorem own_setKeeper {k : Keeper} {i : Instance} {other : String}
    (h : ((p.setKeeper name k).keepers other).own = some i)
    (hk : k.own = some i → (p.keepers name).own = some i) : (p.keepers other).own = some i := by
  change (if other = name then k else p.keepers other).own = some i at h
  split at h
  · next heq => exact heq ▸ hk h
  · exact h

/-- **An instance that is there after a move was there or is registered by it.** -/
theorem own_play {i : Instance} (h : ((p.play node move).keepers name).own = some i) :
    (p.keepers name).own = some i ∨ move = .world (.register name i) ∧ node = i.nodeKey := by
  cases move with
  | elapse ms => exact .inl h
  | hear other key count => exact .inl h
  | discover other service => exact .inl h
  | look n => exact .inl h
  | goOn n => exact .inl h
  | due other key =>
    left
    rw [Standing.play] at h
    split at h
    · unfold Standing.beat at h
      split at h
      · split at h
        · exact h
        · split at h
          · exact own_setKeeper h id
          · exact own_setKeeper (p := p) h id
      · exact h
    · exact h
  | world a =>
    cases a with
    | store op =>
      rw [Standing.play, keepers_apply] at h
      exact .inl h
    | register other j =>
      rw [Standing.play] at h
      split at h
      · next hnode =>
        unfold Standing.register at h
        split at h
        · change (if name = other then _ else p.keepers name).own = some i at h
          split at h
          · next heq =>
            obtain rfl := Option.some.inj h
            exact .inr ⟨by rw [heq], hnode⟩
          · exact .inl h
        · exact .inl h
      · exact .inl h
    | unregister other j =>
      left
      rw [Standing.play] at h
      split at h
      · exact own_setKeeper (p := p) h fun hnone => by cases hnone
      · exact h
    | init other config => exact .inl (own_setKeeper h id)
    | heartBeat other =>
      left
      rw [Standing.play, Standing.heartBeat] at h
      split at h
      · exact own_setKeeper h id
      · exact h
    | renew other =>
      left
      rw [Standing.play, Standing.renew] at h
      split at h <;> exact h
    | destroy other => exact .inl (own_setKeeper (p := p) h fun hnone => by cases hnone)
    | advance ms => exact .inl h
    | sleep ms => exact .inl h
    | discover other service => exact .inl h
    | ask other service => exact .inl h
    | watch other watched tag => exact .inl h
    | clearCache other => exact .inl h

/-- **A node is left to some clients as long as nobody else registers an instance there.** -/
theorem LeftTo.play (h : p.LeftTo clients) (hmove : move.registersFor clients node = true) :
    (p.play node move).LeftTo clients := by
  intro name hname
  refine Option.eq_none_iff_forall_ne_some.2 fun i hi => ?_
  rcases own_play hi with hbefore | ⟨rfl, hnode⟩
  · rw [h name hname] at hbefore
    cases hbefore
  · simp [Move.registersFor, hname, hnode] at hmove

theorem leftTo_empty (clients : String → Bool) : LeftTo clients {} := fun _ _ => rfl

/-! ### Runs -/

/-- What a run of moves makes of the standing of a node. -/
def plays (p : Standing) (node : String) : List Move → Standing
  | [] => p
  | move :: rest => plays (p.play node move) node rest

/-- Moves that do not concern a node may be left out. -/
theorem SameFor.plays_filter (h : SameFor clients p q) (hp : p.LeftTo clients)
    (hq : q.LeftTo clients) (keep : Move → Bool) {moves : List Move}
    (hmoves : ∀ move ∈ moves, move.registersFor clients node = true ∧
      (move.concerns clients node = true → keep move = true)) :
    SameFor clients (p.plays node moves) (q.plays node (moves.filter keep)) := by
  induction moves generalizing p q with
  | nil => exact h
  | cons move rest ih =>
    obtain ⟨hfor, hconcerns⟩ := hmoves move List.mem_cons_self
    have hrest := fun move hmove => hmoves move (List.mem_cons_of_mem _ hmove)
    cases hkeep : keep move with
    | true =>
      rw [List.filter_cons_of_pos hkeep]
      exact ih (h.play hp hq hfor) (hp.play hfor) (hq.play hfor) hrest
    | false =>
      have hidle : move.concerns clients node = false := by
        refine Bool.eq_false_iff.2 fun hyes => ?_
        rw [hconcerns hyes] at hkeep
        cases hkeep
      rw [List.filter_cons_of_neg (Bool.eq_false_iff.1 hkeep)]
      exact ih ((hp.idle hidle).symm.trans h) (hp.play hfor) hq hrest

/-- **A node stands the same to those it is left to after any two runs that do the same of what
concerns it.** -/
theorem sameFor_plays (hp : p.LeftTo clients) (keep : Move → Bool) {as bs : List Move}
    (has : ∀ move ∈ as, move.registersFor clients node = true ∧
      (move.concerns clients node = true → keep move = true))
    (hbs : ∀ move ∈ bs, move.registersFor clients node = true ∧
      (move.concerns clients node = true → keep move = true))
    (hsame : as.filter keep = bs.filter keep) :
    SameFor clients (p.plays node as) (p.plays node bs) := by
  have hfirst := (SameFor.refl p).plays_filter hp hp keep has
  have hsecond := (SameFor.refl p).plays_filter hp hp keep hbs
  rw [hsame] at hfirst
  exact hfirst.trans hsecond.symm

/-! ### Where a record comes from -/

/-- Where the record comes from that is there after a move. -/
inductive Origin (p : Standing) (node : String) : Move → Entry → Prop where
  | kept {move : Move} {e : Entry} (h : p.record = some e) : Origin p node move e
  | put (value : String) (ttl : Nat) :
      Origin p node (.world (.store (.put (recordKey node) value ttl))) ⟨value, p.now + ttl⟩
  | refreshed {e : Entry} (h : p.record = some e) (ttl : Nat) :
      Origin p node (.world (.store (.refresh (recordKey node) ttl)))
        { e with deadline := p.now + ttl }
  | registered {name : String} {i : Instance} {config : RegistryConfig} (hnode : node = i.nodeKey)
      (hconfig : (p.keepers name).config = some config) :
      Origin p node (.world (.register name i)) ⟨Client.recordOf i, p.now + config.ttl.toNat⟩
  | renewed {name : String} {i : Instance} {config : RegistryConfig}
      (hown : (p.keepers name).own = some i) (hconfig : (p.keepers name).config = some config) :
      Origin p node (.world (.renew name)) (Client.renewed p.now config.ttl.toNat i p.record)
  | beaten {name : String} {i : Instance} {period next ttl : Nat}
      (hown : (p.keepers name).own = some i)
      (hbeat : (p.keepers name).beat = some (.heartbeat period next ttl)) :
      Origin p node (.due name Client.heartbeatTask) (Client.renewed p.now ttl i p.record)

theorem some_of_seen {now : Nat} {e e' : Entry} (h : seen now (some e) = some e') : e = e' :=
  Option.some.inj (Option.filter_eq_some_iff.1 h).1

theorem renewal_some {ttl : Nat} {e : Entry} (h : p.renewal name ttl = some e) :
    p.record = some e ∨
      ∃ i, (p.keepers name).own = some i ∧ e = Client.renewed p.now ttl i p.record := by
  unfold Standing.renewal at h
  split at h
  · next i _ hown => exact .inr ⟨i, hown, (some_of_seen h).symm⟩
  · exact .inl h

/-- **Every record comes from somewhere.** -/
theorem origin {e : Entry} (h : (p.play node move).record = some e) : Origin p node move e := by
  cases move with
  | elapse ms => exact .kept (Option.filter_eq_some_iff.1 h).1
  | hear other key count => exact .kept h
  | discover other service => exact .kept h
  | look n => exact .kept h
  | goOn n => exact .kept h
  | due other key =>
    rw [Standing.play] at h
    split at h
    · next hkey =>
      unfold Standing.beat at h
      split at h
      · next period next ttl hbeat =>
        split at h
        · exact .kept h
        · split at h
          · exact .kept h
          · rcases renewal_some h with hkept | ⟨i, hown, rfl⟩
            · exact .kept hkept
            · exact hkey ▸ .beaten hown hbeat
      · exact .kept h
    · exact .kept h
  | world a =>
    cases a with
    | store op =>
      cases op with
      | put key value ttl =>
        rw [Standing.play, Standing.apply] at h
        split at h
        · next hboth =>
          obtain rfl := some_of_seen h
          exact hboth.2 ▸ .put value ttl
        · exact .kept h
      | refresh key ttl =>
        rw [Standing.play, Standing.apply] at h
        split at h
        · next hboth =>
          obtain ⟨hrefreshed, -⟩ := Option.filter_eq_some_iff.1 h
          obtain ⟨before, hbefore, rfl⟩ := Option.map_eq_some_iff.1 hrefreshed
          exact hboth.2 ▸ .refreshed hbefore ttl
        · exact .kept h
      | delete key =>
        rw [Standing.play, Standing.apply] at h
        split at h
        · cases h
        · exact .kept h
      | setAvailable available => exact .kept h
      | get key => exact .kept h
      | scan root => exact .kept h
      | sweep => exact .kept h
    | register other i =>
      rw [Standing.play] at h
      split at h
      · next hnode =>
        unfold Standing.register at h
        split at h
        · next config hconfig havailable =>
          obtain rfl := some_of_seen h
          exact .registered hnode hconfig
        · exact .kept h
      · exact .kept h
    | unregister other i =>
      rw [Standing.play] at h
      split at h
      · rcases ite_eq_or_eq (p.available = true) none p.record with hnone | hsame
        · cases hnone.symm.trans h
        · exact .kept (hsame.symm.trans h)
      · exact .kept h
    | init other config => exact .kept h
    | heartBeat other =>
      rw [Standing.play, Standing.heartBeat] at h
      split at h <;> exact .kept h
    | renew other =>
      rw [Standing.play, Standing.renew] at h
      split at h
      · next config hconfig =>
        rcases renewal_some h with hkept | ⟨i, hown, rfl⟩
        · exact .kept hkept
        · exact .renewed hown hconfig
      · exact .kept h
    | destroy other =>
      rcases ite_eq_or_eq (p.available = true ∧ (p.keepers other).own.isSome = true) none p.record
        with hnone | hsame
      · cases hnone.symm.trans h
      · exact .kept (hsame.symm.trans h)
    | advance ms => exact .kept h
    | sleep ms => exact .kept h
    | discover other service => exact .kept h
    | ask other service => exact .kept h
    | watch other watched tag => exact .kept h
    | clearCache other => exact .kept h

end Standing

theorem Traffic.standing_plays {x : Traffic} (hx : x.Orderly) (moves : List Move)
    (node : String) : (x.plays moves).standing node = (x.standing node).plays node moves := by
  induction moves generalizing x with
  | nil => rfl
  | cons move rest ih =>
    rw [Standing.plays, ← standing_play hx]
    exact ih (hx.play move)

end RemoteCall.Registry
