import RemoteCall.Proofs.Registry.Upkeep

/-! How long a registration lasts, and how long its record does.

A lease is not a timer. Its client writes the record when it registers, each turn of the heartbeat
writes it again, and between two writings the store counts down: so a record may lapse while its
client is still at work, and stand for a while after its client has left.
`lease_follows_registration` says how far the two may part, at a node that one client alone uses.
For as long as the client holds on, the instance stays in its hands, and every turn of the heartbeat
that reaches the store brings the record back. Once the client has given it up nothing is written any
more, and the record ends no later than a lease after it was written last.

A turn of the heartbeat goes from record to record by a list of its own. One that is on its
way to the node when the client gives it up still comes there, and may write the record back
(`given_up_on_its_way`); no other does. -/
namespace RemoteCall.Registry
namespace Outpost
variable {o p x : Outpost} {a : Action} {node : String} {i : Instance} {id : TaskId}
  {period next ttl late : Nat} {reached : Bool}

/-! ### While the client holds on to a node -/

/-- Whether by an action the client neither gives up a node nor registers another instance there. -/
def holdsOn (node : String) (o : Outpost) (a : Action) : Bool :=
  !a.givesUp node && (o.registered? node a).isNone

/-- If by an action a turn of a heartbeat is through with a node, whether the store is available to
it. -/
def turn? (id : TaskId) (node : String) (o : Outpost) : Action → Option Bool
  | .round n =>
    match o.rounds[n]? with
    | some r => if r.isOf id then r.verdict? o.store o.now node else none
    | none => none
  | _ => none

/-- Whether a heartbeat never comes to a node later than by some time. -/
def punctual (id : TaskId) (node : String) (late : Nat) (o : Outpost) : Action → Bool
  | .elapse ms =>
    (match o.job? id with
    | some (.heartbeat _ next _) => o.now + ms ≤ next + late
    | _ => true) &&
    o.rounds.all fun r =>
      match r.beat with
      | some b => b.task ≠ id || !r.awaits node || o.now + ms ≤ b.due + late
      | none => true
  | _ => true

/-- Whether a turn of a heartbeat that was due by some moment has yet to come to a node. -/
def Pending (id : TaskId) (node : String) (moment : Nat) (o : Outpost) : Prop :=
  ∃ r ∈ o.rounds, ∃ due, r.beat = some ⟨id, due⟩ ∧ r.awaits node = true ∧ due ≤ moment

/-- How a node stands to the client that registered an instance there. If the store was available
when the record was last to be written, the heartbeat comes to the node once more by a period
later, and the record lives for a lease. -/
structure Leased (id : TaskId) (node : String) (i : Instance) (period ttl : Nat) (reached : Bool)
    (o : Outpost) : Prop where
  own : o.own? node = some i
  renewed : ∀ r ∈ o.rounds, ∀ j, (node, j) ∈ r.left → j = i
  value : ∀ e, o.record? node = some e → e.value = Client.recordOf i
  beat : ∃ next, o.job? id = some (.heartbeat period next ttl) ∧
    (reached = true → ∃ e moment, o.record? node = some e ∧ moment ≤ o.now ∧
      moment + ttl ≤ e.deadline ∧ (next ≤ moment + period ∨ o.Pending id node (moment + period)))

/-! While a client holds on to a node. -/

theorem own?_of_holdsOn (h : Course o a p) (hholds : o.holdsOn node a = true)
    (hown : o.own? node = some i) : p.own? node = some i := by
  obtain ⟨hkeeps, hold⟩ := Bool.and_eq_true_iff.1 hholds
  rcases h.own? (Option.isNone_iff_eq_none.1 hold) with hsame | ⟨hgone, -⟩
  · exact hsame.trans hown
  · simp [hgone] at hkeeps

/-- Time goes on, and no turn of the heartbeat is missed. -/
theorem Leased.elapse (h : Leased id node i period ttl reached o) {ms : Nat}
    (hpunctual : punctual id node late o (.elapse ms) = true) (hterm : period + late < ttl) :
    Leased id node i period ttl reached { o with now := o.now + ms } := by
  obtain ⟨hontime, hturns⟩ := Bool.and_eq_true_iff.1 hpunctual
  obtain ⟨next, hjob, hreached⟩ := h.beat
  refine ⟨h.own, h.renewed, fun e he => ?_, next, hjob, fun hr => ?_⟩
  · refine h.value e ?_
    obtain ⟨hentry, hlive⟩ := Option.filter_eq_some_iff.1 he
    replace hlive : o.now + ms < e.deadline := of_decide_eq_true hlive
    exact Option.filter_eq_some_iff.2 ⟨hentry, decide_eq_true (by omega)⟩
  · obtain ⟨e, moment, hrecord, hmoment, hdeadline, hahead⟩ := hreached hr
    have hlate : o.now + ms ≤ moment + period + late := by
      rcases hahead with hnext | ⟨r, hr, due, hbeat, hawaits, hdue⟩
      · have hbound : o.now + ms ≤ next + late := by simpa [hjob] using hontime
        omega
      · have hbound : o.now + ms ≤ due + late := by
          simpa [hbeat, hawaits] using List.all_eq_true.1 hturns r hr
        omega
    refine ⟨e, moment, ?_, Nat.le_add_right_of_le hmoment, hdeadline, hahead⟩
    have hlive : o.now + ms < e.deadline := by omega
    obtain ⟨hentry, -⟩ := Option.filter_eq_some_iff.1 hrecord
    exact Option.filter_eq_some_iff.2 ⟨hentry, decide_eq_true hlive⟩

/-- A renewal of another record. -/
theorem Pending.set {moment n : Nat} {r r' : Round} (h : Pending id node moment o)
    (hr : o.rounds[n]? = some r) (hbeat : r'.beat = r.beat)
    (hawaits : r.isOf id = true → r.awaits node = true → r'.awaits node = true)
    (hrounds : p.rounds = o.rounds.set n r') : Pending id node moment p := by
  obtain ⟨q, hq, due, hqbeat, hqawaits, hdue⟩ := h
  obtain ⟨m, hm⟩ := List.mem_iff_getElem?.1 hq
  by_cases hmn : n = m
  · subst hmn
    obtain rfl := Option.some.inj (hr.symm.trans hm)
    refine ⟨r', ?_, due, hbeat.trans hqbeat, hawaits (by simp [Round.isOf, hqbeat]) hqawaits, hdue⟩
    rw [hrounds]
    exact List.mem_set (List.getElem?_eq_some_iff.1 hr).1 r'
  · refine ⟨q, ?_, due, hqbeat, hqawaits, hdue⟩
    rw [hrounds]
    exact List.mem_iff_getElem?.2 ⟨m, by rw [List.getElem?_set_ne hmn, hm]⟩

/-- A renewal goes on, and finds at the node the same instance as before. -/
theorem Leased.renewed_set (h : Leased id node i period ttl reached o) {n : Nat} {r r' : Round}
    {s : Store} (hr : o.rounds[n]? = some r) (hgoes : r.Goes o.store o.now r' s) :
    ∀ q ∈ o.rounds.set n r', ∀ j, (node, j) ∈ q.left → j = i := by
  intro q hq j hj
  rcases List.mem_or_eq_of_mem_set hq with hq | rfl
  · exact h.renewed q hq j hj
  · exact h.renewed r (List.mem_of_getElem? hr) j (hgoes.mem_left hj)

/-- The record is written, and the lease begins anew. -/
theorem Leased.anew (h : Leased id node i period ttl reached o) (ho : o.Regular) {s : Store}
    {rounds : List Round} {value : String} (hvalue : value = Client.recordOf i) (httl : 0 < ttl)
    (hrounds : ∀ q ∈ rounds, ∀ j, (node, j) ∈ q.left → j = i) (reached' : Bool)
    (hstore : s.entries = o.store.entries.insert (recordKey node) ⟨value, o.now + ttl⟩) :
    Leased id node i period ttl reached' { o with store := s, rounds := rounds } := by
  have hrecord : s.live? o.now (recordKey node) = some ⟨value, o.now + ttl⟩ := by
    rw [Store.live?, hstore, Dict.find?_insert_self]
    exact seen_some_of_live (decide_eq_true (Nat.lt_add_of_pos_right httl))
  obtain ⟨next, hjob, -⟩ := h.beat
  obtain ⟨hnext, -⟩ := ho.beats id period next ttl hjob
  refine ⟨h.own, hrounds, fun e he => ?_, next, hjob, fun _ => ?_⟩
  · obtain rfl := Option.some.inj (hrecord.symm.trans he)
    exact hvalue
  · exact ⟨_, o.now, hrecord, Nat.le_refl _, Nat.le_refl _, .inl hnext⟩

/-- A renewal comes to the node. -/
theorem Leased.visit (h : Leased id node i period ttl reached o) (ho : o.Regular) {n : Nat}
    {r r' : Round} {s : Store} (hr : o.rounds[n]? = some r) (hat : r.isAt node = true)
    (hstep : r.step o.store o.now = (r', s)) (hgoes : r.Goes o.store o.now r' s) (httl : 0 < ttl) :
    Leased id node i period ttl ((o.turn? id node (.round n)).getD reached)
      { o with store := s, rounds := o.rounds.set n r' } := by
  have hmem := List.mem_of_getElem? hr
  have hrounds := h.renewed_set hr hgoes
  obtain ⟨next, hjob, hreached⟩ := h.beat
  obtain ⟨-, config, hconfig, rfl⟩ := ho.beats id period next ttl hjob
  obtain ⟨config', hconfig', hterm⟩ := ho.rounds r hmem
  obtain rfl := Option.some.inj (hconfig.symm.trans hconfig')
  have hnode {first : String} {j : Instance} {rest : Dict Instance}
      (hleft : r.left = (first, j) :: rest) : first = node := by
    simpa [Round.isAt, hleft] using hat
  have hturn : o.turn? id node (.round n) =
      if r.isOf id && r'.left.length < r.left.length then some o.store.available else none := by
    simp only [turn?, hr, Round.verdict?, hat, hstep, Bool.true_and]
    cases r.isOf id <;> simp
  cases hgoes with
  | through hleft => simp [Round.isAt, hleft] at hat
  | @extended first j rest e hleft honline hlive =>
    obtain rfl := hnode hleft
    exact h.anew ho (h.value e hlive) httl hrounds _ (by rw [hterm])
  | @written first j rest hleft honline =>
    obtain rfl := hnode hleft
    obtain rfl : j = i := h.renewed r hmem j (hleft ▸ List.mem_cons_self)
    exact h.anew ho rfl httl hrounds _ (by rw [hterm])
  | @lapsed first j rest hleft hgone =>
    obtain rfl := hnode hleft
    have hnone : (o.store.expire o.now (recordKey first)).2.live? o.now (recordKey first) = none :=
      (Store.live?_expire _ _ _ _).trans hgone
    have hunreached : ¬reached = true := by
      intro hr
      obtain ⟨e, -, hrecord, -⟩ := hreached hr
      rw [record?, hgone] at hrecord
      cases hrecord
    rw [hturn, if_neg (by simp), Option.getD_none]
    refine ⟨h.own, hrounds, fun e he => ?_, next, hjob, fun hr => absurd hr hunreached⟩
    rw [record?, hnone] at he
    cases he
  | @refused first j rest hleft hoffline =>
    obtain rfl := hnode hleft
    refine ⟨h.own, hrounds, h.value, next, hjob, fun hr' => ?_⟩
    rw [hturn, hoffline] at hr'
    -- It was no turn of the heartbeat, or the store was not available to it.
    have hother : r.isOf id = false := by
      refine Bool.eq_false_iff.2 fun hof => ?_
      rw [if_pos] at hr'
      · cases hr'
      · simp [hof, Round.pass, hleft]
    rw [hother, Bool.false_and, if_neg Bool.false_ne_true, Option.getD_none] at hr'
    obtain ⟨e, moment, hrecord, hmoment, hdeadline, hahead⟩ := hreached hr'
    refine ⟨e, moment, hrecord, hmoment, hdeadline, hahead.imp_right fun hpending => ?_⟩
    have hbeat : (r.pass rest false).beat = r.beat := rfl
    refine hpending.set hr hbeat (fun hof => ?_) rfl
    rw [hother] at hof
    cases hof

/-- What renewals under way would write back stays the same. -/
theorem Leased.renewed_course (h : Leased id node i period ttl reached o) (ho : o.Regular)
    (hcourse : Course o a p) : ∀ r ∈ p.rounds, ∀ j, (node, j) ∈ r.left → j = i := by
  have hbegun {beat : Option Beat} {ttl : Nat}
      (hrounds : p.rounds = o.rounds ++ [{ beat := beat, ttl := ttl, left := o.member.client.own }]) :
      ∀ r ∈ p.rounds, ∀ j, (node, j) ∈ r.left → j = i := by
    intro r hr j hj
    rcases List.mem_append.1 (hrounds ▸ hr) with hr | hr
    · exact h.renewed r hr j hj
    · obtain rfl := List.mem_singleton.1 hr
      exact Option.some.inj ((ho.orderly.own.find?_of_mem hj).symm.trans h.own)
  cases hcourse.renews with
  | same hrounds => exact hrounds ▸ h.renewed
  | asked hconfig hrounds => exact hbegun hrounds
  | turn hjob hrounds => exact hbegun hrounds
  | goesOn hr hrounds => exact hrounds ▸ h.renewed_set hr (Round.goes_step _ _ _)

/-- If no renewal comes to the node, those that have yet to come there still have. -/
theorem Pending.course {moment : Nat} (h : Pending id node moment o) (hcourse : Course o a p)
    (hother : o.visits node a = false) : Pending id node moment p := by
  have hbegun {r : Round} (hrounds : p.rounds = o.rounds ++ [r]) : Pending id node moment p := by
    obtain ⟨q, hq, hrest⟩ := h
    exact ⟨q, hrounds ▸ List.mem_append_left _ hq, hrest⟩
  cases hcourse.renews with
  | same hrounds =>
    obtain ⟨q, hq, hrest⟩ := h
    exact ⟨q, hrounds ▸ hq, hrest⟩
  | asked hconfig hrounds => exact hbegun hrounds
  | turn hjob hrounds => exact hbegun hrounds
  | @goesOn n r p hr hrounds =>
    have hgoes := r.goes_step o.store o.now
    rw [visits, hr, Option.any_some] at hother
    exact h.set hr hgoes.beat (fun _ hawaits => (hgoes.awaits hother).trans hawaits) hrounds

theorem not_pending_of_idle {moment : Nat} (hidle : o.busy id = false) :
    ¬Pending id node moment o := by
  rintro ⟨r, hr, due, hbeat, hawaits, -⟩
  have hbusy : o.busy id = true := by
    refine List.any_eq_true.2 ⟨r, hr, ?_⟩
    have hleft : r.left ≠ [] := by
      intro hnone
      simp [Round.awaits, hnone, Dict.contains] at hawaits
    simp [Round.isOf, hbeat, hleft]
  rw [hidle] at hbusy
  cases hbusy

/-- Nothing is done to the record, and no time passes. -/
theorem Leased.rest (h : Leased id node i period ttl reached o) (ho : o.Regular)
    (hcourse : Course o a p) (hholds : o.holdsOn node a = true) (hnow : p.now = o.now)
    (hother : o.visits node a = false) (hrests : Rests node o p) (hperiod : 0 < period) :
    Leased id node i period ttl ((o.turn? id node a).getD reached) p := by
  have hrecord : p.record? node = o.record? node := by rw [record?, hnow, hrests.live]
  have hturn : o.turn? id node a = none := by
    cases a with
    | round n =>
      rw [visits] at hother
      rw [turn?]
      split
      · next r hr =>
        rw [hr, Option.any_some] at hother
        simp [Round.verdict?, hother]
      · rfl
    | _ => rfl
  have hown := own?_of_holdsOn hcourse hholds h.own
  obtain ⟨next, hjob, hreached⟩ := h.beat
  rw [hturn, Option.getD_none]
  refine ⟨hown, h.renewed_course ho hcourse, fun e he => h.value e (hrecord ▸ he), ?_⟩
  have hstays : a ≠ .destroy := by
    rintro rfl
    cases hholds
  rcases hcourse.beat_goes_on hjob hperiod hstays with
    hsame | ⟨-, -, hidle, hnext, hrounds⟩
  · refine ⟨next, hsame, fun hr => ?_⟩
    obtain ⟨e, moment, he, hmoment, hdeadline, hahead⟩ := hreached hr
    exact ⟨e, moment, hrecord.trans he, hnow ▸ hmoment, hdeadline,
      hahead.imp_right fun hpending => hpending.course hcourse hother⟩
  · refine ⟨next + period, hnext, fun hr => ?_⟩
    obtain ⟨e, moment, he, hmoment, hdeadline, hahead⟩ := hreached hr
    refine ⟨e, moment, hrecord.trans he, hnow ▸ hmoment, hdeadline, .inr ?_⟩
    -- The turn that has begun is the one that was ahead.
    have hdue := hahead.resolve_right (not_pending_of_idle hidle)
    refine ⟨_, hrounds ▸ List.mem_append_right _ (List.mem_singleton.2 rfl), next, rfl, ?_, hdue⟩
    exact Option.isSome_of_eq_some h.own

/-- **While a client holds on to a node, each action keeps the lease.** -/
theorem Course.leased (h : Course o a p) (ho : o.Regular) (halone : a.usesAlone node = true)
    (hholds : o.holdsOn node a = true) (hpunctual : punctual id node late o a = true)
    (hperiod : 0 < period) (hterm : period + late < ttl)
    (hleased : Leased id node i period ttl reached o) :
    Leased id node i period ttl ((o.turn? id node a).getD reached) p := by
  cases h.touch halone with
  | rest hother hrests =>
    rcases h.time with hnow | ⟨ms, rfl, rfl⟩
    · exact hleased.rest ho h hholds hnow hother hrests hperiod
    · exact hleased.elapse hpunctual hterm
  | visited hr hat =>
    exact hleased.visit ho hr hat rfl (Round.goes_step _ _ _) (Nat.zero_lt_of_lt hterm)
  | registered hnew hconfig hstore => simp [holdsOn, hnew] at hholds
  | givenUp hgone hentry => simp [holdsOn, hgone] at hholds

/-- Whether an action is a step of a renewal that is under way and has yet to come to a node. -/
def comesTo (node : String) (o : Outpost) : Action → Bool
  | .round n => o.rounds[n]?.any fun r => r.awaits node
  | _ => false

/-- Whether the client has nothing at a node, and no renewal comes there but those that were to at
an earlier state. -/
structure Abandoned (x : Outpost) (node : String) (o : Outpost) : Prop where
  own : o.own? node = none
  rounds : ∀ n, o.comesTo node (.round n) = true → x.comesTo node (.round n) = true

theorem comesTo_iff {n : Nat} : o.comesTo node (.round n) = true ↔
    ∃ r, o.rounds[n]? = some r ∧ r.awaits node = true := Option.any_eq_true _ _

theorem comesTo_of_visits (h : o.visits node a = true) : o.comesTo node a = true := by
  cases a with
  | round n =>
    obtain ⟨r, hr, hat⟩ := (Option.any_eq_true _ _).1 h
    exact comesTo_iff.2 ⟨r, hr, Round.awaits_of_isAt hat⟩
  | _ => cases h

/-- A renewal comes to a node if it was to before. If it has begun by now, the client has the
node. -/
theorem Course.comesTo (h : Course o a p) {n : Nat} (hn : p.comesTo node (.round n) = true) :
    o.comesTo node (.round n) = true ∨ (o.own? node).isSome = true := by
  obtain ⟨r, hr, hawaits⟩ := comesTo_iff.1 hn
  have hbegun {beat : Option Beat} {ttl : Nat}
      (hrounds : p.rounds = o.rounds ++ [{ beat := beat, ttl := ttl, left := o.member.client.own }]) :
      o.comesTo node (.round n) = true ∨ (o.own? node).isSome = true := by
    rw [hrounds] at hr
    by_cases hn : n < o.rounds.length
    · rw [List.getElem?_append_left hn] at hr
      exact .inl (comesTo_iff.2 ⟨r, hr, hawaits⟩)
    · rw [List.getElem?_append_right (Nat.le_of_not_lt hn)] at hr
      obtain rfl := List.mem_singleton.1 (List.mem_of_getElem? hr)
      exact .inr hawaits
  cases h.renews with
  | same hrounds => exact .inl (comesTo_iff.2 ⟨r, hrounds ▸ hr, hawaits⟩)
  | asked hconfig hrounds => exact hbegun hrounds
  | turn hjob hrounds => exact hbegun hrounds
  | @goesOn m q p hq hrounds =>
    refine .inl (comesTo_iff.2 ?_)
    rw [hrounds] at hr
    by_cases hmn : m = n
    · subst hmn
      rw [List.getElem?_set_self (List.getElem?_eq_some_iff.1 hq).1] at hr
      obtain rfl := Option.some.inj hr
      exact ⟨q, hq, (q.goes_step o.store o.now).awaits_before hawaits⟩
    · rw [List.getElem?_set_ne hmn] at hr
      exact ⟨r, hr, hawaits⟩

theorem Course.abandoned (h : Course o a p) (hold : o.registered? node a = none)
    (ho : Abandoned x node o) : Abandoned x node p where
  own := by
    rcases h.own? hold with hsame | ⟨-, hnone⟩
    · exact hsame.trans ho.own
    · exact hnone
  rounds n hn := by
    rcases h.comesTo hn with hbefore | hown
    · exact ho.rounds n hbefore
    · rw [ho.own] at hown
      cases hown

/-- **The record of a node that was given up is written only by a renewal that was to come to the
node then**, unless the client registers there anew. -/
theorem Abandoned.written (h : Abandoned x node o) (ho : o.Regular)
    (halone : a.usesAlone node = true) (hold : o.registered? node a = none) :
    ((o.written? node a).isNone || x.comesTo node a) = true := by
  cases hwritten : o.written? node a with
  | none => rfl
  | some moment =>
    unfold written? at hwritten
    split at hwritten
    · next e he =>
      split at hwritten
      · cases hwritten
      · next hnew =>
        obtain ⟨hwriter, -⟩ := (entry_of_course (o.course a) ho halone he).resolve_left hnew
        have hcomes := comesTo_of_visits (hwriter.resolve_left fun h => h hold)
        cases a with
        | round n => exact h.rounds n hcomes
        | _ => cases hcomes
    · cases hwritten

theorem Abandoned.run (h : Abandoned x node o) (ho : o.Regular) {actions : List Action}
    (halone : actions.all (·.usesAlone node) = true)
    (hold : o.always (fun w b => (w.registered? node b).isNone) actions = true) :
    o.always (fun w b => (w.written? node b).isNone || x.comesTo node b) actions = true := by
  induction actions generalizing o with
  | nil => rfl
  | cons a rest ih =>
    obtain ⟨ha, hrest⟩ := Bool.and_eq_true_iff.1 halone
    obtain ⟨hfirst, hold⟩ := Bool.and_eq_true_iff.1 hold
    replace hfirst := Option.isNone_iff_eq_none.1 hfirst
    have hcourse := o.course a
    have hlater := ih (hcourse.abandoned hfirst h) (hcourse.regular ho) hrest hold
    exact Bool.and_eq_true_iff.2 ⟨h.written ho ha hfirst, hlater⟩

/-! ### The promise -/

/-- Whether a renewal is under way that has yet to come to a node. -/
def awaited (node : String) (o : Outpost) : Bool := o.rounds.any fun r => r.awaits node

def beating : List Action := [.init {}, .heartBeat, .tick 1]

/-- A turn of the heartbeat is on its way to the printer. -/
def onItsWay : List Action := beating ++ [.register (printer 1), .elapse 10000, .tick 1]

/-- It comes there, and finds the record gone. -/
def arriving : List Action := [.round 1, .round 1]

/-- **A renewal that is on its way to a node when the node is given up comes to it afterwards.** The
record is deleted, and then written back. -/
theorem given_up_on_its_way :
    let node := (printer 1).nodeKey
    let x := run {} onItsWay
    let y := x.step (.unregister (printer 1))
    (onItsWay ++ .unregister (printer 1) :: arriving).all (·.usesAlone node) = true ∧
      x.awaited node = true ∧ y.own? node = none ∧ y.record? node = none ∧
      ((y.run arriving).record? node).isSome = true := by
  decide +kernel

end Outpost
end RemoteCall.Registry
