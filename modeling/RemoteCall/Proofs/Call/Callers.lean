import RemoteCall.Call.Callers
import RemoteCall.Proofs.Balance.InFlight
import RemoteCall.Proofs.Transport.Departures

/-! What callers that go away leave behind.

Three books are kept while a call is under way: the connections that an address has counted, the
table of pending calls, and the calls that the balancer counts. `abandoned_remains` says what
stands in them after any run: what belongs to calls that go on, and what those who went away left
behind. A caller leaves the connection that was being made for it, the entry of its call, and the
count of the instance that it had selected; nothing gives them back because it went away.

The other way round, whoever goes away where none of these is at stake leaves nothing. -/
namespace RemoteCall.Callers
open Transport

variable {s : Strategies} {x : Callers} {n : Nat} {c : Caller} {left : List Departure}

/-! ### The balancer and the courses of the calls -/

/-- The calls of the callers, of those who have gone away as well. -/
def flights (x : Callers) : Flights := ⟨x.balancer, x.all.map Caller.flight⟩

theorem getElem?_flights (hc : x.all[n]? = some c) : x.flights.calls[n]? = some c.flight := by
  rw [flights, List.getElem?_map, hc]
  rfl

theorem flights_advance (s : Strategies) (hc : x.all[n]? = some c)
    (found : Except RegistryError (List Instance)) (outcome : Outcome) :
    (x.advance n c found outcome).flights = x.flights.step s (.step n found outcome) := by
  rw [Flights.step, getElem?_flights hc]
  simp only [flights, advance, Flights.put]
  rw [map_modify _ (fun _ => _) Caller.flight fun _ => rfl]

theorem flights_visit (s : Strategies) (hc : x.all[n]? = some c) (hgone : c.gone = false)
    (address : String) :
    (x.visit n c address).flights = x.flights.step s (.visit n address) := by
  rw [Flights.step, getElem?_flights hc, visit, hgone]
  simp only [flights, Flights.put, Bool.false_eq_true, if_false]
  rw [map_modify (fun d => { d with flight := (c.flight.visit x.balancer address).1 })
    (fun _ => (c.flight.visit x.balancer address).1) Caller.flight fun _ => rfl]

/-- A change of callers that keeps their courses. -/
theorem flights_modify (x : Callers) (n : Nat) (client : Client) (f : Caller → Caller)
    (hf : ∀ c, (f c).flight = c.flight) :
    flights { x with client := client, all := x.all.modify n f } = x.flights := by
  rw [flights, flights, map_modify_of_eq f Caller.flight hf]

/-- **A step of the callers is at most one step of their courses.** -/
theorem flights_step (s : Strategies) (x : Callers) (a : Action) :
    (x.step s a).flights = x.flights.run s (x.course? a).toList := by
  cases a with
  | invoke r =>
    rw [step, flights, List.map_append]
    rfl
  | step n found =>
    rw [step, course?]
    split
    · next c hc =>
      rw [hc, Option.bind_some, proceed]
      split
      · rfl
      · split
        · next outcome houtcome =>
          rw [houtcome]
          exact flights_advance s hc found outcome
        · next hnone =>
          rw [hnone]
          split
          · exact flights_modify x n _ _ fun _ => rfl
          · rfl
    · next hc =>
      rw [hc]
      rfl
  | visit n address =>
    rw [step, course?]
    split
    · next c hc =>
      rw [hc, Option.bind_some]
      split
      · next hgone =>
        rw [visit, if_pos hgone]
        rfl
      · next hgone => exact flights_visit s hc (by simpa using hgone) address
    · next hc =>
      rw [hc]
      rfl
  | leave n =>
    rw [step]
    split
    · unfold goAway
      split
      · rfl
      · exact flights_modify x n _ (fun c => { c with gone := true }) fun _ => rfl
    · rfl
  | client a =>
    rw [step]
    split <;> rfl

theorem flights_run (s : Strategies) (x : Callers) (actions : List Action) :
    (x.run s actions).flights = x.flights.run s (x.courses s actions) := by
  induction actions generalizing x with
  | nil => rfl
  | cons a rest ih => rw [run, ih, courses, Flights.run_append, flights_step]

/-- Whoever holds an instance is still there or has gone away. -/
theorem inFlight_flights (x : Callers) (address : String) :
    x.flights.inFlight address = x.holders false address + x.holders true address := by
  unfold Flights.inFlight flights holders
  rw [List.countP_map]
  induction x.all with
  | nil => rfl
  | cons c rest ih =>
    simp only [List.countP_cons, ih]
    cases c.gone <;> simp <;> omega

/-! ### The client -/

/-- **A step of the callers is at most one step of the client**, and leaves behind what that
leaves. -/
theorem client_step (s : Strategies) (x : Callers) (a : Action) :
    (∃ b, (x.step s a).client = x.client.step b ∧ x.departure? a = x.client.leaves? b) ∨
      (x.step s a).client = x.client ∧ ∀ d, x.departure? a = some d → d = {} := by
  cases a with
  | invoke r => exact .inr ⟨rfl, nofun⟩
  | step n found =>
    rw [step]
    split
    · unfold proceed
      split
      · exact .inr ⟨rfl, nofun⟩
      · split
        · exact .inr ⟨rfl, nofun⟩
        · split
          · next request target _ _ _ =>
            exact .inl ⟨.call target.address (.request request), rfl, rfl⟩
          · exact .inr ⟨rfl, nofun⟩
    · exact .inr ⟨rfl, nofun⟩
  | visit n address =>
    rw [step]
    split
    · unfold visit
      split <;> exact .inr ⟨rfl, nofun⟩
    · exact .inr ⟨rfl, nofun⟩
  | leave n =>
    rw [step, departure?]
    split
    · next c hc =>
      rw [hc, Option.bind_some]
      unfold goAway
      cases hd : c.departure? x.client with
      | none => exact .inr ⟨rfl, nofun⟩
      | some d =>
        unfold Caller.departure? at hd
        split at hd
        · cases hd
        · cases hsent : c.sent with
          | some m =>
            rw [hsent] at hd
            exact .inl ⟨.abandon m, rfl, hd.symm⟩
          | none =>
            rw [hsent] at hd
            refine .inr ⟨rfl, ?_⟩
            rintro d' ⟨⟩
            dsimp only at hd
            split at hd <;> simp_all
    · next hc =>
      rw [hc]
      exact .inr ⟨rfl, nofun⟩
  | client a =>
    rw [step, departure?]
    split
    · exact .inr ⟨rfl, nofun⟩
    · exact .inl ⟨a, rfl, rfl⟩

theorem traced_step (s : Strategies) (h : x.client.Traced left) (a : Action) :
    (x.step s a).client.Traced (left ++ (x.departure? a).toList) := by
  rcases client_step s x a with ⟨b, hclient, hleaves⟩ | ⟨hclient, hnothing⟩
  · rw [hclient, hleaves]
    exact h.step b
  · rw [hclient]
    cases hd : x.departure? a with
    | none => simpa using h
    | some d =>
      obtain rfl := hnothing d hd
      exact h.nothing

theorem traced_run (s : Strategies) (h : x.client.Traced left) (actions : List Action) :
    (x.run s actions).client.Traced (left ++ x.departures s actions) := by
  induction actions generalizing x left with
  | nil =>
    rw [departures, List.append_nil]
    exact h
  | cons a rest ih =>
    rw [departures, ← List.append_assoc]
    exact ih (traced_step s h a)

/-! ### What remains -/

/-- What stands in the books of a client and its balancer, if `left` are the departures there
were. -/
structure Remains (left : List Departure) (x : Callers) : Prop where
  /-- An address counts the connections that are not closed yet or being made, and those that were
  left behind. -/
  live : ∀ (k : PoolId) (pool : AddressPool), x.client.pool.pools[k]? = some pool →
    pool.live = x.client.pool.unclosed k + x.client.pool.connects k + x.client.lostAt left k
  /-- An entry of the table belongs to a call that goes on, or was left behind. -/
  table : ∀ e ∈ x.client.pending.calls,
    (∃ call ∈ x.client.calls, call.phase.ticket? = some e.ticket) ∨
      ∃ d ∈ left, d.ticket = some e.ticket
  /-- A call is counted for a caller that holds an instance, or held it when it went away. -/
  counts : ∀ address, x.balancer.active address ≤ x.holders false address + x.holders true address

theorem remains (h : x.client.Traced left) (hflights : x.flights.Cautious) : Remains left x where
  live _ _ hk := h.live hk
  table _ he := h.entry he
  counts address := x.inFlight_flights address ▸ hflights.le address

/-! ### One departure -/

theorem step_leave (s : Strategies) (hc : x.all[n]? = some c) {d : Departure}
    (hd : c.departure? x.client = some d) : x.step s (.leave n) =
      { x with
        client := match c.sent with
          | some m => x.client.step (.abandon m)
          | none => x.client
        all := x.all.modify n fun c => { c with gone := true } } := by
  rw [step, hc]
  dsimp only
  rw [goAway, hd]
  rfl

theorem departure?_sent {d : Departure} (hd : c.departure? x.client = some d) {m : CallId}
    (hm : c.sent = some m) : x.client.departure? m = some d := by
  unfold Caller.departure? at hd
  split at hd
  · cases hd
  · rwa [hm] at hd

/-- **What remains of calls that are abandoned.** After any run the books hold what belongs to calls
that go on, and what those who went away left behind: the connection that was being made for them,
the entry of their call, and the count of the instance that they had selected, which stays exact as
long as the listings name the instance. Wherever a caller waits and goes away now, its call adds that
to the books, and only that: it gives its connection back, and takes neither its entry nor its count
with it. -/
theorem abandoned_remains (hs : s.Neutral) (config : TransportConfig) (actions : List Action) :
    let x := (new config).run s actions
    let left := (new config).departures s actions
    Remains left x ∧
      (∀ address, Flights.Tracked s Flights.idle ((new config).courses s actions) address →
        x.balancer.active address = x.holders false address + x.holders true address) ∧
      ∀ (n : Nat) (c : Caller) (d : Departure), x.all[n]? = some c →
        c.departure? x.client = some d →
        let y := x.step s (.leave n)
        Remains (left ++ [d]) y ∧
          (∀ (m : CallId) (call : ClientCall) (a : AttemptId) (attempt : Attempt), c.sent = some m →
            x.client.calls[m]? = some call → call.phase.attempt? = some a →
            y.client.pool.attempts[a]? = some attempt → attempt.phase.hand = .nothing) ∧
          y.client.pending.calls = x.client.pending.calls ∧ y.balancer = x.balancer ∧
          y.all = x.all.modify n fun c => { c with gone := true } := by
  intro x left
  have htraced : x.client.Traced left := by
    have hrun := traced_run (x := new config) s (Client.traced_new config) actions
    rwa [List.nil_append] at hrun
  have hflights : x.flights = Flights.idle.run s ((new config).courses s actions) :=
    flights_run s (new config) actions
  have hcautious : x.flights.Cautious := hflights ▸ Flights.cautious_idle.run hs _
  refine ⟨remains htraced hcautious, fun address htracked => ?_, fun n c d hc hd => ?_⟩
  · rw [← inFlight_flights, hflights, ← Flights.cautious_idle.exact hs htracked, ← hflights]
    rfl
  · intro y
    have hy : y = _ := step_leave s hc hd
    have hleft : y.client.Traced (left ++ [d]) := by
      have hstep := traced_step s htraced (.leave n)
      rwa [departure?, hc, Option.bind_some, hd] at hstep
    have hsame : y.flights = x.flights := flights_step s x (.leave n)
    refine ⟨remains hleft (hsame ▸ hcautious), fun m call a attempt hm hcall ha hattempt => ?_,
      ?_, ?_, ?_⟩
    · rw [hy, hm] at hattempt
      exact Client.hand_abandon htraced.attended (departure?_sent hd hm) hcall ha hattempt
    · rw [hy]
      dsimp only
      split
      · exact Client.calls_abandon x.client _
      · rfl
    · rw [hy]
    · rw [hy]

/-! ### Callers of one printer -/

/-- A caller waits for the first connection to the only instance. -/
def connecting : List Action :=
  [.invoke { serviceName := "Printer", methodName := "print" }] ++
    List.replicate 4 (.step 0 (.ok [Flights.printer 1])) ++
    [.proceed 0, .pool (.listen 0), .pool (.noneIdle 0), .pool (.claim 0)].map .client

/-- The caller has its connection and waits for the response. -/
def responding : List Action :=
  connecting ++ (.pool (.connected 0) :: List.replicate 4 (.proceed 0)).map .client

/-- There is no connection, and the caller waits before it tries again. -/
def pausing : List Action :=
  connecting ++ [.pool (.refused 0 .shutDown), .proceed 0].map .client ++
    List.replicate 2 (.step 0 (.ok []))

/-- Two attempts, and failures stay failures. -/
def patient : Pipeline := { serializer := .native, retry := .fixed 2 5 }

theorem abandoned_remains_connecting :
    let x := (new Client.single).run Flights.plain.strategies connecting
    let y := x.step Flights.plain.strategies (.leave 0)
    Remains [] x ∧ x.balancer.active (Flights.printer 1).address = 1 ∧
      Remains [{ connection := some 0 }] y ∧ y.client.lostAt [{ connection := some 0 }] 0 = 1 := by
  intro x y
  have hnone : (new Client.single).departures Flights.plain.strategies connecting = [] := by
    decide +kernel
  have hleaves : (x.all[0]?).bind (Caller.departure? x.client) =
      some { connection := some 0 } := by
    decide +kernel
  have hlisted : Flights.Listed Flights.plain.strategies (Flights.printer 1).address Flights.idle
      ((new Client.single).courses Flights.plain.strategies connecting) := by
    decide +kernel
  have hheld : x.holders false (Flights.printer 1).address +
      x.holders true (Flights.printer 1).address = 1 := by
    decide +kernel
  obtain ⟨c, hc, hd⟩ := Option.bind_eq_some_iff.1 hleaves
  obtain ⟨hbefore, hexact, hafter⟩ :=
    abandoned_remains Flights.plain.neutral_strategies Client.single connecting
  rw [hnone] at hbefore hafter
  exact ⟨hbefore, (hexact _ ⟨[], _, rfl, rfl, hlisted⟩).trans hheld, (hafter 0 c _ hc hd).1,
    by decide +kernel⟩

/-- A caller goes away while its connection is being made, and the only room of the address is taken
for good; one goes away while it waits for the response, and its entry stays in the table; one goes
away between two attempts. In each case the balancer goes on counting the call. -/
theorem abandoned_calls_leak :
    let connectingLeft := (new Client.single).run Flights.plain.strategies (connecting ++ [.leave 0])
    let respondingLeft := (new Client.single).run Flights.plain.strategies (responding ++ [.leave 0])
    let pausingLeft := (new Client.single).run patient.strategies (pausing ++ [.leave 0])
    ((connectingLeft.client.pool.pools[0]?).map AddressPool.live = some 1 ∧
        connectingLeft.client.pool.unclosed 0 = 0 ∧ connectingLeft.client.pool.connects 0 = 0 ∧
        connectingLeft.client.pool.hasRoom 0 = false) ∧
      (respondingLeft.client.pending.size = 1 ∧
        ∀ call ∈ respondingLeft.client.calls, call.phase.ticket? = none) ∧
      ∀ y ∈ [connectingLeft, respondingLeft, pausingLeft],
        y.balancer.active (Flights.printer 1).address = 1 ∧
          y.holders false (Flights.printer 1).address = 0 := by
  decide +kernel

end RemoteCall.Callers
