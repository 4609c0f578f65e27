import Mathlib.Data.List.Infix
import Mathlib.Data.List.Induction
import RemoteCall.Call.Flights
import RemoteCall.Proofs.Balance.LeastActive
import RemoteCall.Proofs.Modified

/-! Whether the least active balancer knows the calls in flight.

A call selects at most once and then releases what it selected (`Pipeline.carries_invokeWith`),
so a step moves the count of an address along with the calls in flight there, except that a
listing without the address forgets the count (`Moves`). The count is therefore never too high,
and it is exact from any moment without calls in flight on, as long as the listings that go by it
name the address while there are some (`Tracked`). A selection reads the counts one after another
(`read_run`) and goes by what it has read. `selects_fewest` is what all this promises to it.

Without the condition the count can be too low: in `forgets_vanished` the only instance of a
service disappears from the registry for a moment while a call to it is in flight. And counts that
were exact may not be any more when the selection goes by them: in `selections_meet` two calls
that select at the same time choose the same instance. -/
namespace RemoteCall

/-! ### Calls that give back what they take -/

namespace Process
variable {α β : Type}

/-- Whether a process that holds one instance, or none, is done holding another, if it never
selects while it holds an instance and releases only what it holds. -/
def Carries (held final : Option Instance) : Process α → Prop
  | done _ => held = final
  | discover _ next => ∀ r, (next r).Carries held final
  | cleanup _ next => next.Carries held final
  | select _ _ next => held = none ∧ ∀ r, (next r).Carries r final
  | send _ _ next => ∀ r, (next r).Carries held final
  | release target next => held = some target ∧ next.Carries none final
  | report _ _ next => next.Carries held final
  | pause _ next => next.Carries held final

theorem Carries.bind {p : Process α} {f : α → Process β} {held middle final : Option Instance}
    (h : p.Carries held middle) (hf : ∀ x, (f x).Carries middle final) :
    (p.bind f).Carries held final := by
  induction p generalizing held with
  | done x =>
    obtain rfl := h
    exact hf x
  | discover _ _ ih => exact fun r => ih r (h r)
  | cleanup _ _ ih => exact ih h
  | select _ _ _ ih => exact ⟨h.1, fun r => ih r (h.2 r)⟩
  | send _ _ _ ih => exact fun r => ih r (h r)
  | release _ _ ih => exact ⟨h.1, ih h.2⟩
  | report _ _ _ ih => exact ih h
  | pause _ _ ih => exact ih h

end Process

/-- Strategies that neither select nor release, whatever the call holds. -/
structure Strategies.Neutral (s : Strategies) : Prop where
  retry : ∀ r i held, (s.retry (.sendTo r i)).Carries held held
  tolerate : ∀ call e held, (s.tolerate call e).Carries held held

theorem Retry.carries_attempts {task : Process Outcome} {held : Option Instance}
    (h : task.Carries held held) (wait attempt left : Nat) :
    (attempts task wait attempt left).Carries held held := by
  induction left generalizing attempt with
  | zero => exact h
  | succ left ih =>
    refine h.bind fun outcome => ?_
    cases outcome with
    | ok response => rfl
    | error e =>
      dsimp only
      split
      · exact ih (attempt + 1)
      · rfl

theorem Retry.carries_run (r : Retry) {task : Process Outcome} {held : Option Instance}
    (h : task.Carries held held) : (r.run task).Carries held held := by
  cases r with
  | no => exact h
  | fixedInterval maxAttempts wait => exact carries_attempts h wait 1 (maxAttempts - 1)

theorem Tolerance.carries_tryOthers (request : Request) (failed : Option Instance)
    (last : CallError) (candidates : List Instance) (held : Option Instance) :
    (tryOthers request failed last candidates).Carries held held := by
  induction candidates generalizing last with
  | nil => rfl
  | cons i rest ih =>
    rw [tryOthers]
    split
    · exact ih last
    · intro outcome
      cases outcome with
      | ok response => rfl
      | error e => exact ih e

theorem Tolerance.carries_apply (t : Tolerance) (call : FailedCall) (e : CallError)
    (held : Option Instance) : (t.apply call e).Carries held held := by
  cases t with
  | failFast => rfl
  | failSafe => rfl
  | failBack defaults => rfl
  | failOver => exact carries_tryOthers _ _ _ _ held

theorem Pipeline.neutral_strategies (p : Pipeline) : p.strategies.Neutral where
  retry _ _ _ := p.retry.carries_run fun _ => rfl
  tolerate := p.tolerance.carries_apply

/-- A call starts and ends holding nothing. -/
theorem Pipeline.carries_invokeWith {s : Strategies} (h : s.Neutral) (r : Request) :
    (invokeWith s.retry s.tolerate r).Carries none none := by
  intro found
  cases found with
  | error e => rfl
  | ok candidates =>
    refine ⟨rfl, fun selected => ?_⟩
    cases selected with
    | none => rfl
    | some i =>
      refine (h.retry r i (some i)).bind fun outcome => ⟨rfl, ?_⟩
      cases outcome with
      | ok response => rfl
      | error e => exact h.tolerate _ e none

namespace Flights
variable {s : Strategies} {f : Flights} {address : String}

/-! ### One step -/

/-- What a step may do to the count of an address and to the calls in flight there. -/
inductive Moves (named : Prop) (count flying : Nat) : (count' flying' : Nat) → Prop
  | still : Moves named count flying count flying
  | select : Moves named count flying (count + 1) (flying + 1)
  | release (h : 0 < flying) : Moves named count flying (count - 1) (flying - 1)
  | forget (h : ¬named) : Moves named count flying 0 flying

theorem Moves.le {named : Prop} {count flying count' flying' : Nat}
    (h : Moves named count flying count' flying') (hle : count ≤ flying) : count' ≤ flying' := by
  cases h <;> omega

theorem Moves.eq {named : Prop} {count flying count' flying' : Nat}
    (h : Moves named count flying count' flying') (hnamed : flying ≠ 0 → named)
    (heq : count = flying) : count' = flying' := by
  cases h with
  | still => exact heq
  | select => omega
  | release => omega
  | forget hnot =>
    by_cases hzero : flying = 0
    · exact hzero.symm
    · exact absurd (hnamed hzero) hnot

/-- The balancer counts calls, and the calls release what they hold. -/
structure Sound (f : Flights) : Prop where
  counts : ∃ l, f.balancer = .leastActive l
  carries : ∀ c ∈ f.calls, c.rest.Carries c.holds none

section Change
variable {n : Nat} {c d : Flight} {l : Balance.LeastActive} {i : Instance}
  (found : Except RegistryError (List Instance)) (outcome : Outcome)

theorem isTo_of_none (h : c.holds = none) : c.isTo address = false := by
  rw [Flight.isTo, h]
  rfl

theorem isTo_of_some (h : c.holds = some i) : c.isTo address = decide (address = i.address) := by
  simp [Flight.isTo, h, eq_comm]

theorem inFlight_put (hc : f.calls[n]? = some c) (d : Flight) (b : Balancer) (address : String) :
    (f.put n (d, b)).inFlight address + (c.isTo address).toNat =
      f.inFlight address + (d.isTo address).toNat :=
  countP_modify hc (fun _ => d) (·.isTo address)

/-- A change after which the call holds what it held before. -/
theorem inFlight_keep (hc : f.calls[n]? = some c) (hkeep : d.holds = c.holds) (b : Balancer) :
    (f.put n (d, b)).inFlight address = f.inFlight address := by
  have hput := inFlight_put hc d b address
  rw [Flight.isTo, Flight.isTo, hkeep] at hput
  exact Nat.add_right_cancel hput

/-- A change by which the call selects an instance. -/
theorem inFlight_take (hc : f.calls[n]? = some c) (hnone : c.holds = none)
    (hsome : d.holds = some i) (b : Balancer) :
    (f.put n (d, b)).inFlight address =
      f.inFlight address + if address = i.address then 1 else 0 := by
  have hput := inFlight_put hc d b address
  rw [isTo_of_none hnone, isTo_of_some hsome] at hput
  split <;> simp_all

/-- A change by which the call releases an instance. -/
theorem inFlight_give (hc : f.calls[n]? = some c) (hsome : c.holds = some i)
    (hnone : d.holds = none) (b : Balancer) :
    (f.put n (d, b)).inFlight address + (if address = i.address then 1 else 0) =
      f.inFlight address := by
  have hput := inFlight_put hc d b address
  rw [isTo_of_some hsome, isTo_of_none hnone] at hput
  split <;> simp_all

/-! ### What a call does -/

/-- A step that reads a count does nothing else. -/
theorem step_of_reads {b : Balancer} (h : c.reads? b = some i) :
    c.step b found outcome = ({ c with seen := c.seen ++ [b.active i.address] }, b) := by
  rw [Flight.step, h]

/-- Any other step is the next step of the process. -/
theorem step_of_not_reads {b : Balancer} (h : c.reads? b = none) :
    c.step b found outcome =
      ({ rest := (c.rest.step (c.handler found outcome) b).1, holds := c.heldAfter b },
        (c.rest.step (c.handler found outcome) b).2) := by
  rw [Flight.step, h]

theorem reads?_of_not_select {b : Balancer}
    (h : ∀ params candidates next, c.rest ≠ .select params candidates next) :
    c.reads? b = none := by
  unfold Flight.reads?
  split
  · next params candidates next hrest => exact absurd hrest (h params candidates next)
  · rfl

/-- With all counts read, or with one candidate, a selection takes what it chooses. -/
theorem step_select {params : Dict String} {candidates : List Instance}
    {next : Option Instance → Process Outcome} (hrest : c.rest = .select params candidates next)
    (h : c.reads? (.leastActive l) = none) :
    c.step (.leastActive l) found outcome =
      ({ rest := next (l.selectBy c.seen candidates).1,
         holds := (l.selectBy c.seen candidates).1 },
        .leastActive (l.selectBy c.seen candidates).2) := by
  rw [step_of_not_reads found outcome h, Flight.heldAfter, hrest]
  rfl

/-- A selection that has read all counts has read as many as there are candidates. -/
theorem length_le_of_not_reads {params : Dict String} {candidates : List Instance}
    {next : Option Instance → Process Outcome} (hrest : c.rest = .select params candidates next)
    (h : c.reads? (.leastActive l) = none) :
    candidates.length ≤ c.seen.length ∨ candidates.length ≤ 1 := by
  unfold Flight.reads? at h
  rw [hrest] at h
  dsimp only at h
  split at h
  · next hone => exact .inr hone
  · exact .inl (List.getElem?_eq_none_iff.1 h)

theorem Moves.of_select {named : Prop} (l : Balance.LeastActive) (i : Instance)
    (flying : Nat) : Moves named (l.count address) flying ((l.acquire i).count address)
      (flying + if address = i.address then 1 else 0) := by
  rw [Balance.LeastActive.count_acquire]
  split
  · exact .select
  · exact .still

theorem Moves.of_release {named : Prop} (l : Balance.LeastActive) (i : Instance)
    {flying flying' : Nat} (h : flying' + (if address = i.address then 1 else 0) = flying) :
    Moves named (l.count address) flying ((l.release i).count address) flying' := by
  subst h
  rw [Balance.LeastActive.count_release]
  split
  · exact .release (Nat.succ_pos flying')
  · exact .still

/-- A listing that goes by some counters keeps the count of the address or, if it goes by it and
does not name it, forgets it. -/
theorem Moves.of_cleanupAt {named : Prop} (l : Balance.LeastActive) (visits : String → Bool)
    (current : List Instance) (flying : Nat)
    (h : named → visits address = true → address ∈ current.map Instance.address) :
    Moves named (l.count address) flying ((l.cleanupAt visits current).count address) flying := by
  rw [Balance.LeastActive.count_cleanupAt]
  split
  · next hnot => exact .forget fun hnamed => hnot.2 (h hnamed hnot.1)
  · exact .still

/-- What the count does is all there is to a change after which the call holds what it held. -/
theorem Moves.keep {named : Prop} {count count' : Nat} (hc : f.calls[n]? = some c) {b : Balancer}
    (hkeep : d.holds = c.holds)
    (h : Moves named count (f.inFlight address) count' (f.inFlight address)) :
    Moves named count (f.inFlight address) count' ((f.put n (d, b)).inFlight address) := by
  rwa [inFlight_keep hc hkeep]

/-- What the step of a call does to the count of an address, and to the calls in flight. -/
theorem Sound.moves_step (h : f.Sound) (hc : f.calls[n]? = some c) (address : String) :
    Moves (f.Names address (.step n found outcome)) (f.balancer.active address)
      (f.inFlight address) ((f.put n (c.step f.balancer found outcome)).balancer.active address)
      ((f.put n (c.step f.balancer found outcome)).inFlight address) := by
  obtain ⟨l, hl⟩ := h.counts
  have hcarries := h.carries c (List.mem_of_getElem? hc)
  cases hreads : c.reads? f.balancer with
  | some i =>
    rw [step_of_reads found outcome hreads]
    exact .keep hc rfl .still
  | none =>
  cases hrest : c.rest with
  | done result | discover service next | send request target next
  | report attempt error next | pause ms next =>
    rw [step_of_not_reads found outcome hreads, Flight.heldAfter, hrest]
    exact .keep hc rfl .still
  | cleanup current next =>
    rw [step_of_not_reads found outcome hreads, Flight.heldAfter, hrest, hl]
    refine .keep hc rfl (.of_cleanupAt l _ current _ fun hnames hvisits => hnames current ?_)
    obtain ⟨rest, holds, seen, visited⟩ := c
    obtain rfl : rest = .cleanup current next := hrest
    simpa [current?, hc] using hvisits
  | select params candidates next =>
    rw [hrest] at hcarries
    rw [hl] at hreads
    rw [hl, step_select found outcome hrest hreads]
    by_cases hempty : candidates = []
    · subst hempty
      exact .keep hc hcarries.1.symm .still
    · obtain ⟨i, hi, -⟩ := Balance.LeastActive.choose_least hempty
        (length_le_of_not_reads hrest hreads)
      rw [Balance.LeastActive.selectBy, hi, inFlight_take hc hcarries.1 (i := i) rfl]
      exact .of_select l i _
  | release target next =>
    rw [hrest] at hcarries
    rw [step_of_not_reads found outcome hreads, Flight.heldAfter, hrest, hl]
    exact Moves.of_release l target (inFlight_give hc hcarries.1 rfl _)

/-- What a listing does to the count of an address when it goes by a counter. -/
theorem Sound.moves_visit (h : f.Sound) (hc : f.calls[n]? = some c) (visited address : String) :
    Moves (f.Names address (.visit n visited)) (f.balancer.active address) (f.inFlight address)
      ((f.put n (c.visit f.balancer visited)).balancer.active address)
      ((f.put n (c.visit f.balancer visited)).inFlight address) := by
  obtain ⟨l, hl⟩ := h.counts
  unfold Flight.visit
  split
  · next current next hrest =>
    split
    · exact .keep hc rfl .still
    · next hnew =>
      rw [hl]
      refine .keep hc rfl (.of_cleanupAt l _ current _ fun hnames hvisits => hnames current ?_)
      obtain rfl : address = visited := of_decide_eq_true hvisits
      obtain ⟨rest, holds, seen, visited⟩ := c
      obtain rfl : rest = .cleanup current next := hrest
      simpa [current?, hc] using hnew
  · exact .keep hc rfl .still

/-- What a call has left to do fits what it holds after its step. -/
theorem carries_step (h : c.rest.Carries c.holds none) (b : Balancer) :
    (c.step b found outcome).1.rest.Carries (c.step b found outcome).1.holds none := by
  cases hreads : c.reads? b with
  | some i => rwa [step_of_reads found outcome hreads]
  | none =>
  rw [step_of_not_reads found outcome hreads]
  dsimp only
  rw [Flight.heldAfter]
  cases hrest : c.rest with
  | done result => rwa [hrest] at h
  | discover service next =>
    rw [hrest] at h
    exact h found
  | cleanup current next => rwa [hrest] at h
  | select params candidates next =>
    rw [hrest] at h
    exact h.2 _
  | send request target next =>
    rw [hrest] at h
    exact h outcome
  | release target next =>
    rw [hrest] at h
    exact h.2
  | report attempt error next => rwa [hrest] at h
  | pause ms next => rwa [hrest] at h

theorem carries_visit (h : c.rest.Carries c.holds none) (b : Balancer) (address : String) :
    (c.visit b address).1.rest.Carries (c.visit b address).1.holds none := by
  unfold Flight.visit
  split
  · split <;> exact h
  · exact h

theorem leastActive_step (c : Flight) (l : Balance.LeastActive) :
    ∃ l', (c.step (.leastActive l) found outcome).2 = .leastActive l' := by
  cases hreads : c.reads? (.leastActive l) with
  | some i => exact ⟨l, by rw [step_of_reads found outcome hreads]⟩
  | none =>
    rw [step_of_not_reads found outcome hreads]
    cases c.rest with
    | cleanup current next => exact ⟨_, rfl⟩
    | select params candidates next => exact ⟨_, rfl⟩
    | release target next => exact ⟨_, rfl⟩
    | _ => exact ⟨l, rfl⟩

theorem leastActive_visit (c : Flight) (l : Balance.LeastActive) (address : String) :
    ∃ l', (c.visit (.leastActive l) address).2 = .leastActive l' := by
  unfold Flight.visit
  split
  · split <;> exact ⟨_, rfl⟩
  · exact ⟨l, rfl⟩

theorem Sound.put (h : f.Sound) (hc : f.calls[n]? = some c) {b : Balancer}
    (hcounts : ∃ l, b = .leastActive l) (hcarries : d.rest.Carries d.holds none) :
    (f.put n (d, b)).Sound where
  counts := hcounts
  carries := by
    intro e he
    obtain he | rfl := mem_modify hc he
    · exact h.carries e he
    · exact hcarries

end Change

theorem Sound.step (hs : s.Neutral) (h : f.Sound) (a : Action) : (f.step s a).Sound := by
  obtain ⟨l, hl⟩ := h.counts
  cases a with
  | invoke r =>
    refine ⟨h.counts, fun c hc => ?_⟩
    obtain hc | hc := List.mem_append.1 hc
    · exact h.carries c hc
    · obtain rfl := List.mem_singleton.1 hc
      exact Pipeline.carries_invokeWith hs r
  | step n found outcome =>
    rw [Flights.step]
    split
    · next c hc =>
      exact h.put hc (hl ▸ leastActive_step found outcome c l)
        (carries_step found outcome (h.carries c (List.mem_of_getElem? hc)) f.balancer)
    · exact h
  | visit n address =>
    rw [Flights.step]
    split
    · next c hc =>
      exact h.put hc (hl ▸ leastActive_visit c l address)
        (carries_visit (h.carries c (List.mem_of_getElem? hc)) f.balancer address)
    · exact h

theorem Sound.moves (h : f.Sound) (a : Action) (address : String) :
    Moves (f.Names address a) (f.balancer.active address) (f.inFlight address)
      ((f.step s a).balancer.active address) ((f.step s a).inFlight address) := by
  cases a with
  | invoke r =>
    have hsame : (f.step s (.invoke r)).inFlight address = f.inFlight address := by
      rw [Flights.step, inFlight, List.countP_append, List.countP_singleton, isTo_of_none rfl]
      rfl
    rw [hsame]
    exact .still
  | step n found outcome =>
    rw [Flights.step]
    split
    · next c hc => exact h.moves_step found outcome hc address
    · exact .still
  | visit n visited =>
    rw [Flights.step]
    split
    · next c hc => exact h.moves_visit hc visited address
    · exact .still

/-! ### Runs -/

/-- No call is counted that is not in flight. -/
structure Cautious (f : Flights) : Prop extends Sound f where
  le : ∀ address, f.balancer.active address ≤ f.inFlight address

theorem Cautious.step (hs : s.Neutral) (h : f.Cautious) (a : Action) : (f.step s a).Cautious where
  toSound := h.toSound.step hs a
  le address := (h.moves a address).le (h.le address)

theorem Cautious.run (hs : s.Neutral) (h : f.Cautious) (actions : List Action) :
    (f.run s actions).Cautious := by
  induction actions generalizing f with
  | nil => exact h
  | cons a rest ih => exact ih (h.step hs a)

theorem run_append (s : Strategies) (f : Flights) (early late : List Action) :
    f.run s (early ++ late) = (f.run s early).run s late := by
  induction early generalizing f with
  | nil => rfl
  | cons a rest ih => exact ih (f.step s a)

/-- Where the count is exact it stays exact while the address is listed. -/
theorem Sound.exact_run (hs : s.Neutral) (h : f.Sound) {actions : List Action}
    (hlisted : Listed s address f actions)
    (heq : f.balancer.active address = f.inFlight address) :
    (f.run s actions).balancer.active address = (f.run s actions).inFlight address := by
  induction actions generalizing f with
  | nil => exact heq
  | cons a rest ih => exact ih (h.step hs a) hlisted.2 ((h.moves a address).eq hlisted.1 heq)

theorem Cautious.exact (hs : s.Neutral) (h : f.Cautious) {actions : List Action}
    (ht : Tracked s f actions address) :
    (f.run s actions).balancer.active address = (f.run s actions).inFlight address := by
  obtain ⟨early, late, rfl, hzero, hlisted⟩ := ht
  have hearly := h.run hs early
  rw [run_append]
  refine hearly.exact_run hs hlisted ?_
  exact Nat.le_antisymm (hearly.le address) (hzero ▸ Nat.zero_le _)

/-- A consumer that has not called yet, with the least active balancer. -/
def idle : Flights := { balancer := .leastActive {} }

theorem cautious_idle : idle.Cautious where
  counts := ⟨_, rfl⟩
  carries := nofun
  le _ := Nat.le_refl 0

/-! ### Calls that are left alone -/

section Alone
variable {n : Nat} {c : Flight} {l : Balance.LeastActive}
  (found : Except RegistryError (List Instance)) (outcome : Outcome)

theorem getElem?_put (hc : f.calls[n]? = some c) (x : Flight × Balancer) :
    (f.put n x).calls[n]? = some x.1 := by
  rw [put, List.getElem?_modify_eq, hc]
  rfl

/-- One step after another of the same call. -/
theorem step_put (hc : f.calls[n]? = some c) (x : Flight × Balancer) :
    (f.put n x).step s (.step n found outcome) = f.put n (x.1.step x.2 found outcome) := by
  rw [Flights.step, getElem?_put hc]
  simp [put, List.modify_modify_eq, Function.comp_def]

variable {params : Dict String} {candidates : List Instance}
  {next : Option Instance → Process Outcome}

/-- The first counts of a selection, read in a row. -/
theorem run_reads (hl : f.balancer = .leastActive l) (hc : f.calls[n]? = some c)
    (hrest : c.rest = .select params candidates next) (hseen : c.seen = [])
    (hmany : 1 < candidates.length) {k : Nat} (hk : k ≤ candidates.length) :
    f.run s (List.replicate k (.step n found outcome)) =
      f.put n ({ c with seen := (candidates.take k).map fun i => l.count i.address },
        .leastActive l) := by
  induction k with
  | zero =>
    have hsame : ({ c with seen := [] } : Flight) = c := by rw [← hseen]
    have hput : f.calls.modify n (fun _ => c) = f.calls := modify_of_fixed hc rfl
    rw [List.take_zero, List.map_nil, hsame, put, hput, ← hl]
    rfl
  | succ k ih =>
    let d : Flight := { c with seen := (candidates.take k).map fun i => l.count i.address }
    have hread : d.reads? (.leastActive l) = some candidates[k] := by
      simp [d, Flight.reads?, hrest, Nat.not_le.2 hmany, Nat.min_eq_left (Nat.le_of_succ_le hk)]
    rw [List.replicate_succ', run_append, ih (Nat.le_of_succ_le hk)]
    show (f.put n (d, .leastActive l)).step s (.step n found outcome) = _
    rw [step_put found outcome hc, step_of_reads found outcome hread,
      List.take_succ_eq_append_getElem hk, List.map_append]
    rfl

/-- **A call that is left alone selects as the balancer does at one moment.** -/
theorem select_alone (hl : f.balancer = .leastActive l) (hc : f.calls[n]? = some c)
    (hrest : c.rest = .select params candidates next) (hseen : c.seen = []) :
    f.run s (List.replicate (if candidates.length ≤ 1 then 1 else candidates.length + 1)
        (.step n found outcome)) =
      f.put n ({ rest := next (l.select candidates).1, holds := (l.select candidates).1 },
        .leastActive (l.select candidates).2) := by
  split
  · next hfew =>
    have hchoose : l.selectBy c.seen candidates = l.select candidates := by
      match candidates, hfew with
      | [], _ => rfl
      | [_], _ => rfl
    have hreads : c.reads? (.leastActive l) = none := by
      simp [Flight.reads?, hrest, hfew]
    show f.step s (.step n found outcome) = _
    rw [Flights.step, hc]
    dsimp only
    rw [hl, step_select found outcome hrest hreads, hchoose]
  · next hmany =>
    let d : Flight := { c with seen := candidates.map fun i => l.count i.address }
    have hreads : d.reads? (.leastActive l) = none := by
      simp [d, Flight.reads?, hrest]
    rw [List.replicate_succ', run_append,
      run_reads found outcome hl hc hrest hseen (Nat.lt_of_not_le hmany) (Nat.le_refl _),
      List.take_length]
    show (f.put n (d, .leastActive l)).step s (.step n found outcome) = _
    rw [step_put found outcome hc, step_select found outcome (c := d) hrest hreads]
    rfl

theorem visit_put (hc : f.calls[n]? = some c) (x : Flight × Balancer) (address : String) :
    (f.put n x).step s (.visit n address) = f.put n (x.1.visit x.2 address) := by
  rw [Flights.step, getElem?_put hc]
  simp [put, List.modify_modify_eq, Function.comp_def]

/-- A listing that has gone by some counters goes by some more, and then by the rest. -/
theorem run_visits {current : List Instance} {next : Process Outcome}
    (hc : f.calls[n]? = some c) (hrest : c.rest = .cleanup current next)
    (addresses visited : List String) :
    (f.put n ({ c with visited := visited },
        .leastActive (l.cleanupAt visited.contains current))).run s
        (addresses.map (.visit n) ++ [.step n found outcome]) =
      f.put n ({ rest := next, holds := c.holds }, .leastActive (l.cleanup current)) := by
  induction addresses generalizing visited with
  | nil =>
    have hreads : Flight.reads? { c with visited := visited }
        (.leastActive (l.cleanupAt visited.contains current)) = none :=
      reads?_of_not_select fun params candidates next' h => by
        rw [hrest] at h
        cases h
    have hall : (l.cleanupAt visited.contains current).cleanupAt
        (fun address => !visited.contains address) current = l.cleanup current := by
      rw [Balance.LeastActive.cleanupAt_cleanupAt]
      exact congrArg (l.cleanupAt · current) (funext fun address => Bool.or_not_self _)
    show Flights.step s _ (.step n found outcome) = _
    rw [step_put found outcome hc, step_of_not_reads found outcome hreads, Flight.heldAfter]
    dsimp only
    rw [hrest, ← hall]
    rfl
  | cons address rest ih =>
    show ((Flights.put _ n _).step s (.visit n address)).run s _ = _
    rw [visit_put hc, Flight.visit]
    dsimp only
    rw [hrest]
    dsimp only
    split
    · rw [← hrest]
      exact ih visited
    · rw [Balancer.cleanupAt, Balance.LeastActive.cleanupAt_cleanupAt, ← hrest]
      have hmore : (fun a => visited.contains a || decide (a = address)) =
          (address :: visited).contains := by
        funext a
        rw [List.contains_cons, Bool.or_comm]
        rfl
      rw [hmore]
      exact ih (address :: visited)

/-- **A listing that is left alone forgets what the balancer forgets at one moment**, whatever
counters it has gone by before the others. -/
theorem cleanup_alone {current : List Instance} {next : Process Outcome}
    (hl : f.balancer = .leastActive l) (hc : f.calls[n]? = some c)
    (hrest : c.rest = .cleanup current next) (hvisited : c.visited = [])
    (addresses : List String) :
    f.run s (addresses.map (.visit n) ++ [.step n found outcome]) =
      f.put n ({ rest := next, holds := c.holds }, .leastActive (l.cleanup current)) := by
  have hstart : f = f.put n ({ c with visited := [] },
      .leastActive (l.cleanupAt [].contains current)) := by
    have hsame : ({ c with visited := [] } : Flight) = c := by rw [← hvisited]
    have hput : f.calls.modify n (fun _ => c) = f.calls := modify_of_fixed hc rfl
    have hnone : l.cleanupAt [].contains current = l := by
      simp [Balance.LeastActive.cleanupAt]
    rw [hsame, hnone, put, hput, ← hl]
  conv_lhs => rw [hstart]
  exact run_visits found outcome hc hrest addresses []

end Alone

/-! ### Readings -/

section Readings
variable {n : Nat} {candidates : List Instance} {seen : List Nat}

theorem selection?_eq_some : f.selection? n = some (candidates, seen) ↔
    ∃ c params next, f.calls[n]? = some c ∧ c.rest = .select params candidates next ∧
      c.seen = seen := by
  constructor
  · intro h
    unfold selection? at h
    split at h
    · next params candidates' next holds seen' visited hc =>
      cases h
      exact ⟨_, params, next, hc, rfl, rfl⟩
    · cases h
  · rintro ⟨⟨rest, holds, seen', visited⟩, params, next, hc, hrest, hseen⟩
    obtain rfl : rest = .select params candidates next := hrest
    obtain rfl : seen' = seen := hseen
    rw [selection?, hc]

theorem of_reads? {c : Flight} {b : Balancer} {i : Instance} (h : c.reads? b = some i) :
    ∃ params candidates next, c.rest = .select params candidates next ∧
      candidates[c.seen.length]? = some i := by
  unfold Flight.reads? at h
  split at h
  · next params candidates next hrest =>
    split at h
    · cases h
    · exact ⟨params, candidates, next, hrest, h⟩
  · cases h

/-- **What a call has read when it is about to select**: nothing, or what it had read before the
step, or one more count, as it was before the step. -/
theorem of_selection?_step {a : Action}
    (h : (f.step s a).selection? n = some (candidates, seen)) :
    seen = [] ∨ f.selection? n = some (candidates, seen) ∨
      ∃ before i, seen = before ++ [f.balancer.active i.address] ∧
        candidates[before.length]? = some i ∧ f.selection? n = some (candidates, before) := by
  obtain ⟨d, params, next, hd, hrest, rfl⟩ := selection?_eq_some.1 h
  cases a with
  | invoke r =>
    have hd : (f.calls ++ [{ rest := Pipeline.invokeWith s.retry s.tolerate r }])[n]? = some d := hd
    rw [List.getElem?_append] at hd
    split at hd
    · exact .inr (.inl (selection?_eq_some.2 ⟨d, params, next, hd, hrest, rfl⟩))
    · obtain rfl := List.mem_singleton.1 (List.mem_of_getElem? hd)
      exact .inl rfl
  | step m found outcome =>
    rw [Flights.step] at hd
    split at hd
    · next c hc =>
      obtain ⟨rfl, rfl⟩ | ⟨-, hd⟩ := of_getElem?_modify hc hd
      · cases hreads : c.reads? f.balancer with
        | none =>
          rw [step_of_not_reads found outcome hreads]
          exact .inl rfl
        | some i =>
          rw [step_of_reads found outcome hreads] at hrest ⊢
          obtain ⟨params', candidates', next', hrest', hi⟩ := of_reads? hreads
          obtain ⟨rfl, rfl, rfl⟩ := Process.select.inj (hrest'.symm.trans hrest)
          exact .inr (.inr ⟨c.seen, i, rfl, hi,
            selection?_eq_some.2 ⟨c, _, _, hc, hrest', rfl⟩⟩)
      · exact .inr (.inl (selection?_eq_some.2 ⟨d, params, next, hd, hrest, rfl⟩))
    · exact .inr (.inl (selection?_eq_some.2 ⟨d, params, next, hd, hrest, rfl⟩))
  | visit m address =>
    rw [Flights.step] at hd
    split at hd
    · next c hc =>
      obtain ⟨rfl, rfl⟩ | ⟨-, hd⟩ := of_getElem?_modify hc hd
      · have hkeep : (c.visit f.balancer address).1.rest = c.rest ∧
            (c.visit f.balancer address).1.seen = c.seen := by
          unfold Flight.visit
          split
          · split <;> exact ⟨rfl, rfl⟩
          · exact ⟨rfl, rfl⟩
        rw [hkeep.1] at hrest
        exact .inr (.inl (selection?_eq_some.2 ⟨c, params, next, hc, hrest, hkeep.2.symm⟩))
      · exact .inr (.inl (selection?_eq_some.2 ⟨d, params, next, hd, hrest, rfl⟩))
    · exact .inr (.inl (selection?_eq_some.2 ⟨d, params, next, hd, hrest, rfl⟩))

/-- Each count that a call has read was that of the candidate at its place at some moment of a run
from `f`, when the call had read the counts before it. -/
def Read (s : Strategies) (f : Flights) (actions : List Action) (n : Nat)
    (candidates : List Instance) (seen : List Nat) : Prop :=
  ∀ k count, seen[k]? = some count → ∃ i early late, candidates[k]? = some i ∧
    actions = early ++ late ∧ (f.run s early).selection? n = some (candidates, seen.take k) ∧
    count = (f.run s early).balancer.active i.address

theorem Read.snoc {actions : List Action} (h : Read s f actions n candidates seen) (a : Action) :
    Read s f (actions ++ [a]) n candidates seen := by
  intro k count hk
  obtain ⟨i, early, late, hi, rfl, hselection, hcount⟩ := h k count hk
  exact ⟨i, early, late ++ [a], hi, List.append_assoc early late [a], hselection, hcount⟩

/-- **Whatever a call has read, it has read in the run**, if it had read nothing at its start. -/
theorem read_run (hstart : ∀ candidates seen, f.selection? n = some (candidates, seen) → seen = [])
    (actions : List Action) (h : (f.run s actions).selection? n = some (candidates, seen)) :
    Read s f actions n candidates seen := by
  induction actions using List.reverseRecOn generalizing candidates seen with
  | nil =>
    obtain rfl := hstart candidates seen h
    intro k count hk
    cases hk
  | append_singleton actions a ih =>
    rw [run_append] at h
    obtain rfl | hsame | ⟨before, i, rfl, hi, hbefore⟩ := of_selection?_step h
    · intro k count hk
      cases hk
    · exact (ih hsame).snoc a
    · intro k count hk
      rw [List.getElem?_append] at hk
      split at hk
      · next hlt =>
        obtain ⟨j, early, late, hj, hactions, hselection, hcount⟩ := (ih hbefore).snoc a k count hk
        rw [List.take_append_of_le_length (Nat.le_of_lt hlt)]
        exact ⟨j, early, late, hj, hactions, hselection, hcount⟩
      · next hle =>
        obtain ⟨hlt, hcount⟩ := List.getElem?_eq_some_iff.1 hk
        rw [List.length_singleton] at hlt
        obtain rfl : k = before.length := by omega
        refine ⟨i, actions, [a], hi, rfl, ?_, by simpa using hcount.symm⟩
        rw [List.take_left]
        exact hbefore

end Readings

/-! ### The promise -/

/-- How a call that is about to select comes to an instance after some actions. -/
structure Selects (s : Strategies) (actions : List Action) (n : Nat) (candidates : List Instance)
    (counts : List Nat) (i : Instance) : Prop where
  taken : ∀ found outcome, (((idle.run s actions).step s (.step n found outcome)).calls[n]?).map
    Flight.holds = some (some i)
  /-- Its count is the first of the least ones that were read. -/
  fewest : candidates = [i] ∨ ∃ count, Balance.Least Prod.snd (candidates.zip counts) (i, count)
  /-- Every count was that of its candidate when it was read. -/
  read : Read s idle actions n candidates counts
  /-- If the calls to the candidates have been the same in number, and known to the balancer, since
  the selection began, it is the first with the fewest of them. -/
  undisturbed : ∀ early late, actions = early ++ late →
    (idle.run s early).selection? n = some (candidates, []) →
    (∀ middle, middle <+: late → ∀ j ∈ candidates, Tracked s idle (early ++ middle) j.address ∧
      (idle.run s (early ++ middle)).inFlight j.address =
        (idle.run s actions).inFlight j.address) →
    Balance.Least (fun j => (idle.run s actions).inFlight j.address) candidates i

/-- Counts that were read of candidates with the same calls in flight all the time. -/
theorem Read.eq_map {n : Nat} {candidates : List Instance} {counts : List Nat}
    {actions : List Action} {load : Instance → Nat}
    (h : Read s f actions n candidates counts) (hlength : counts.length = candidates.length)
    (hload : ∀ early, early <+: actions → ∀ j ∈ candidates,
      (f.run s early).balancer.active j.address = load j) :
    counts = candidates.map load := by
  refine List.ext_getElem? fun k => ?_
  rw [List.getElem?_map]
  cases hk : counts[k]? with
  | none =>
    rw [List.getElem?_eq_none (hlength ▸ List.getElem?_eq_none_iff.1 hk)]
    rfl
  | some count =>
    obtain ⟨i, early, late, hi, rfl, -, rfl⟩ := h k count hk
    rw [hi, Option.map_some, hload early (List.prefix_append early late) i (List.mem_of_getElem? hi)]

/-- A call with nothing left to read takes what it chooses. -/
theorem Sound.select {n : Nat} {candidates : List Instance} {counts : List Nat} (h : f.Sound)
    (hc : f.selection? n = some (candidates, counts)) (hne : candidates ≠ [])
    (hread : candidates.length ≤ 1 ∨ counts.length = candidates.length) :
    ∃ i, Balance.LeastActive.choose counts candidates = some i ∧
      ∀ found outcome, ((f.step s (.step n found outcome)).calls[n]?).map Flight.holds =
        some (some i) := by
  obtain ⟨l, hl⟩ := h.counts
  obtain ⟨c, params, next, hn, hrest, rfl⟩ := selection?_eq_some.1 hc
  have hreads : c.reads? (.leastActive l) = none := by
    unfold Flight.reads?
    rw [hrest]
    dsimp only
    split
    · rfl
    · next hmany =>
      exact List.getElem?_eq_none (Nat.le_of_eq (hread.resolve_left hmany).symm)
  obtain ⟨i, hi, -⟩ :=
    Balance.LeastActive.choose_least hne (length_le_of_not_reads hrest hreads)
  refine ⟨i, hi, fun found outcome => ?_⟩
  rw [Flights.step, hn]
  dsimp only
  rw [hl, step_select found outcome hrest hreads, Balance.LeastActive.selectBy, hi,
    Flights.put, List.getElem?_modify_eq, hn]
  rfl

/-- **What the least active balancer promises.** Whatever calls do at the same time, no call is
counted that is not in flight, and the count of an address is exact once the address is tracked. A
call that has read the counts of its candidates selects the first of those with the least count, and
if nothing happens to the candidates meanwhile, the first of those with the fewest calls in
flight. -/
theorem selects_fewest (hs : s.Neutral) (actions : List Action) :
    (∀ address, (idle.run s actions).balancer.active address ≤
      (idle.run s actions).inFlight address) ∧
    (∀ address, Tracked s idle actions address →
      (idle.run s actions).balancer.active address = (idle.run s actions).inFlight address) ∧
    ∀ n candidates counts, (idle.run s actions).selection? n = some (candidates, counts) →
      candidates ≠ [] → (candidates.length ≤ 1 ∨ counts.length = candidates.length) →
      ∃ i ∈ candidates, Selects s actions n candidates counts i := by
  have hexact (actions : List Action) (address : String) (ht : Tracked s idle actions address) :
      (idle.run s actions).balancer.active address = (idle.run s actions).inFlight address :=
    cautious_idle.exact hs ht
  refine ⟨(cautious_idle.run hs actions).le, hexact actions,
    fun n candidates counts hc hne hread => ?_⟩
  obtain ⟨i, hi, htaken⟩ :=
    (cautious_idle.run hs actions).toSound.select (s := s) hc hne hread
  obtain ⟨j, hj, hfewest⟩ := Balance.LeastActive.choose_least hne
    (hread.symm.imp_left fun h : counts.length = _ => Nat.le_of_eq h.symm)
  obtain rfl : i = j := Option.some.inj (hi.symm.trans hj)
  have hidle : ∀ candidates seen, idle.selection? n = some (candidates, seen) → seen = [] :=
    fun _ _ h => by cases h
  refine ⟨i, ?_, htaken, hfewest, read_run hidle actions hc,
    fun early late hactions hbegun hsame => ?_⟩
  · obtain hsingle | ⟨count, hleast⟩ := hfewest
    · exact hsingle ▸ List.mem_singleton_self i
    · exact (List.of_mem_zip hleast.mem).1
  · subst hactions
    obtain hone | hlength := hread
    · obtain ⟨k, rfl⟩ := List.length_eq_one_iff.1
        (Nat.le_antisymm hone (List.length_pos_iff.2 hne))
      obtain rfl : i = k := Option.some.inj (hi.symm.trans rfl)
      exact Balance.least_single _ i
    · have hreads : Read s (idle.run s early) late n candidates counts := by
        refine read_run (fun candidates' seen h => ?_) late (run_append s idle early late ▸ hc)
        rw [hbegun] at h
        cases h
        rfl
      have hcounts := hreads.eq_map hlength fun middle hmiddle k hk => by
        obtain ⟨htracked, hflying⟩ := hsame middle hmiddle k hk
        rw [← run_append, hexact _ _ htracked, hflying]
      rw [hcounts] at hi
      obtain ⟨k, hk, hleast⟩ := Balance.LeastActive.choose_map_least _ hne
      obtain rfl : i = k := Option.some.inj (hi.symm.trans hk)
      exact hleast

/-- A printer, at a port of its own. -/
def printer (port : UInt16) : Instance := { name := "Printer", host := "10.0.0.1", port := port }

/-- No repetitions, and failures stay failures. -/
def plain : Pipeline := { serializer := .native }

/-- The next step of a call, with what the registry finds. -/
def next (n : Nat) (found : List Instance) : Action := .step n (.ok found) (.ok (.empty ""))

/-- A call asks for instances and tells the balancer which ones there are. -/
def asks (n : Nat) (found : List Instance) : List Action :=
  [.invoke { serviceName := "Printer", methodName := "print" }, next n found, next n found]

/-- A call reads the counts of two candidates and selects one of them. -/
def selects (n : Nat) : List Action := List.replicate 3 (next n [])

/-- One call is in flight, and another one comes to its selection. -/
def overlapping : List Action :=
  asks 0 [printer 1, printer 2] ++ selects 0 ++ asks 1 [printer 1, printer 2]

/-- The second call reads both counts, and goes to the other printer. -/
theorem selects_fewest_overlapping :
    let actions := overlapping ++ [next 1 [], next 1 []]
    (idle.run plain.strategies actions).selection? 1 = some ([printer 1, printer 2], [1, 0]) ∧
      (((idle.run plain.strategies actions).step plain.strategies (next 1 [])).calls[1]?).map
        Flight.holds = some (some (printer 2)) := by
  intro actions
  have hc : (idle.run plain.strategies actions).selection? 1 =
      some ([printer 1, printer 2], [1, 0]) := by
    decide +kernel
  have hbegun : (idle.run plain.strategies overlapping).selection? 1 =
      some ([printer 1, printer 2], []) := by
    decide +kernel
  have hquiet : ∀ middle ∈ List.inits [next 1 [], next 1 []], ∀ j ∈ [printer 1, printer 2],
      Listed plain.strategies j.address idle (overlapping ++ middle) ∧
        (idle.run plain.strategies (overlapping ++ middle)).inFlight j.address =
          (idle.run plain.strategies actions).inFlight j.address := by
    decide +kernel
  obtain ⟨hone, htwo⟩ :
      (idle.run plain.strategies actions).inFlight (printer 1).address = 1 ∧
        (idle.run plain.strategies actions).inFlight (printer 2).address = 0 := by
    decide +kernel
  obtain ⟨i, hi, hselects⟩ := (selects_fewest plain.neutral_strategies actions).2.2 1 _ _ hc nofun
    (.inr rfl)
  have hleast := hselects.undisturbed overlapping _ rfl hbegun fun middle hmiddle j hj =>
    have hj := hquiet middle ((List.mem_inits _ _).2 hmiddle) j hj
    ⟨⟨[], _, rfl, rfl, hj.1⟩, hj.2⟩
  refine ⟨hc, ?_⟩
  obtain rfl | hi := List.mem_cons.1 hi
  · have hle := hleast.le (y := printer 2) (by simp)
    omega
  · obtain rfl := List.mem_singleton.1 hi
    exact hselects.taken _ _

/-- A call is in flight to the only printer when the printer disappears for a moment, and a
third call is about to select when there are two. -/
def vanishing : List Action :=
  asks 0 [printer 1] ++ next 0 [] :: (asks 1 [] ++ asks 2 [printer 1, printer 2])

/-- The call in flight is forgotten, and the third one goes where it is, though nobody uses the
other printer. -/
theorem forgets_vanished :
    (idle.run plain.strategies vanishing).balancer.active (printer 1).address = 0 ∧
      (idle.run plain.strategies vanishing).inFlight (printer 1).address = 1 ∧
      (idle.run plain.strategies vanishing).inFlight (printer 2).address = 0 ∧
      ((idle.run plain.strategies (vanishing ++ selects 2)).calls[2]?).map Flight.holds =
        some (some (printer 1)) := by
  decide +kernel

/-- Two calls have read the counts of both printers, and the first of them has selected. -/
def meeting : List Action :=
  asks 0 [printer 1, printer 2] ++ asks 1 [printer 1, printer 2] ++
    [next 0 [], next 1 [], next 0 [], next 1 [], next 0 []]

/-- The second call goes where the first one is, though every listing names both printers and nobody
uses the other one. -/
theorem selections_meet :
    (∀ j ∈ [printer 1, printer 2], Listed plain.strategies j.address idle meeting) ∧
      (idle.run plain.strategies meeting).inFlight (printer 1).address = 1 ∧
      (idle.run plain.strategies meeting).inFlight (printer 2).address = 0 ∧
      ((idle.run plain.strategies (meeting ++ [next 1 []])).calls[1]?).map Flight.holds =
        some (some (printer 1)) := by
  decide +kernel

end Flights
end RemoteCall
