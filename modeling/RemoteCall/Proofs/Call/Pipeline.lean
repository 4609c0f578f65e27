import RemoteCall.Call.Pipeline
import RemoteCall.Call.Plan
import RemoteCall.Call.Trace

/-! What a call does from end to end.

The registry, the balancer and the transport are a handler with a state of its own, which may answer
as it likes and let others step in between; the way to repeat attempts is any plan, and the way to
deal with failure any process. What is done is then fixed but for their answers
(`callWith_course`): nothing behind a failed discovery, nothing but a selection without an instance,
and otherwise the attempts of the plan (`RetryPlan.Follows`), one release behind the last of them,
and what the tolerance does exactly if they ended in an error. -/
namespace RemoteCall
open Process (Handler Event)

variable {σ : Type} {h : Handler σ} {r : Request} {i : Instance}

/-! ### The attempts -/

namespace RetryPlan

/-- The events of a plan whose attempts send a request to an instance, what it ends with, and the
state that it leaves. -/
inductive Follows (h : Handler σ) (r : Request) (i : Instance) :
    RetryPlan → σ → List Event → Outcome → σ → Prop where
  | finish (outcome : Outcome) (s : σ) : Follows h r i (.finish outcome) s [] outcome s
  | attempt {next : Outcome → RetryPlan} {s s' : σ} {events : List Event} {outcome : Outcome} :
      Follows h r i (next (h.send r i s).1) (h.send r i s).2 events outcome s' →
      Follows h r i (.attempt next) s (.sent r i (h.send r i s).1 :: events) outcome s'
  | report {n : Nat} {e : CallError} {next : RetryPlan} {s s' : σ} {events : List Event}
      {outcome : Outcome} : Follows h r i next (h.report n e s) events outcome s' →
      Follows h r i (.report n e next) s (.reported n e :: events) outcome s'
  | pause {ms : Nat} {next : RetryPlan} {s s' : σ} {events : List Event} {outcome : Outcome} :
      Follows h r i next (h.pause ms s) events outcome s' →
      Follows h r i (.pause ms next) s (.paused ms :: events) outcome s'

/-- Whether an event is an attempt to an instance, or lies between two attempts. -/
def Attempts (r : Request) (i : Instance) : Event → Prop
  | .sent request target _ => request = r ∧ target = i
  | .reported _ _ | .paused _ => True
  | .discovered _ _ | .cleanedUp _ | .selected _ _ _ | .released _ => False

variable {plan : RetryPlan} {s s' : σ} {events : List Event} {outcome : Outcome}

/-- Every attempt goes to the one instance with the one request, and nothing else is done. -/
theorem Follows.attempts (hplan : Follows h r i plan s events outcome s') :
    ∀ event ∈ events, Attempts r i event := by
  induction hplan with
  | finish outcome s => exact List.forall_mem_nil _
  | attempt _ ih => exact List.forall_mem_cons.2 ⟨⟨rfl, rfl⟩, ih⟩
  | report _ ih => exact List.forall_mem_cons.2 ⟨trivial, ih⟩
  | pause _ ih => exact List.forall_mem_cons.2 ⟨trivial, ih⟩

/-- A plan around the sending of a request is followed to its end. -/
theorem follows_around (h : Handler σ) (r : Request) (i : Instance) (plan : RetryPlan) (s : σ) :
    Follows h r i plan s ((plan.around (.sendTo r i)).trace h s)
      ((plan.around (.sendTo r i)).run h s).1 ((plan.around (.sendTo r i)).run h s).2 := by
  induction plan generalizing s with
  | finish outcome => exact .finish outcome s
  | attempt next ih => exact .attempt (ih _ _)
  | report n e next ih => exact .report (ih _)
  | pause ms next ih => exact .pause (ih _)

end RetryPlan

namespace Pipeline

/-! ### Around the attempts -/

/-- What a call begins with. -/
def opening (r : Request) (candidates : List Instance) (choice : Option Instance) : List Event :=
  [.discovered r.serviceKey (.ok candidates), .cleanedUp candidates,
    .selected (paramsOf r) candidates choice]

/-- What a call does once an instance is selected. -/
def closing (tolerate : FailedCall → CallError → Process Outcome) (r : Request)
    (candidates : List Instance) (i : Instance) (outcome : Outcome) : Process Outcome :=
  .release i <|
    match outcome with
    | .ok response => .done (.ok response)
    | .error e => tolerate ⟨r, candidates, some i⟩ e

section Invoke
variable {s s₁ s₂ s₃ : σ} {candidates : List Instance} {outcome : Outcome}
  (retry : Process Outcome → Process Outcome)
  (tolerate : FailedCall → CallError → Process Outcome)

theorem invokeWith_undiscovered {e : RegistryError}
    (hfound : h.discover r.serviceKey s = (.error e, s₁)) :
    (invokeWith retry tolerate r).trace h s = [.discovered r.serviceKey (.error e)] ∧
      (invokeWith retry tolerate r).run h s = (.error (.registry e), s₁) := by
  simp only [invokeWith, Process.trace, Process.run, hfound, and_self]

theorem invokeWith_unselected (hfound : h.discover r.serviceKey s = (.ok candidates, s₁))
    (hchoice : h.select (paramsOf r) candidates (h.cleanup candidates s₁) = (none, s₂)) :
    (invokeWith retry tolerate r).trace h s = opening r candidates none ∧
      (invokeWith retry tolerate r).run h s = (.error (.noAvailableInstance r.serviceKey), s₂) := by
  simp only [invokeWith, Process.trace, Process.run, hfound, hchoice, opening, and_self]

/-- With an instance, what is repeated runs between the opening and the closing. -/
theorem invokeWith_selected (hfound : h.discover r.serviceKey s = (.ok candidates, s₁))
    (hchoice : h.select (paramsOf r) candidates (h.cleanup candidates s₁) = (some i, s₂))
    (htask : (retry (.sendTo r i)).run h s₂ = (outcome, s₃)) :
    (invokeWith retry tolerate r).trace h s =
        opening r candidates (some i) ++ ((retry (.sendTo r i)).trace h s₂ ++
          (closing tolerate r candidates i outcome).trace h s₃) ∧
      (invokeWith retry tolerate r).run h s =
        (closing tolerate r candidates i outcome).run h s₃ := by
  simp only [invokeWith, Process.trace, Process.run, hfound, hchoice, Process.trace_bind,
    Process.run_bind, htask]
  exact ⟨rfl, rfl⟩

end Invoke

/-- What a caller is told: a fault that the response carries, or its data, if there are any. -/
theorem answerOf_ok {α : Type} (serializer : Serializer) (shape : Shape α) (response : Response) :
    answerOf serializer shape (.ok response) =
      match response.fault, response.data with
      | some text, _ => .error (.remote text)
      | none, none => .ok none
      | none, some data => match serializer.decode shape data with
        | .ok x => .ok (some x)
        | .error e => .error (.value e) := by
  obtain ⟨data, dataType, message, fault⟩ := response
  cases fault with
  | some text => rfl
  | none =>
    cases data with
    | none => rfl
    | some data =>
      simp only [answerOf, resultOf, Response.decodeData]
      cases serializer.decode shape data <;> rfl

/-- **A call runs exactly its pipeline**, whatever the registry, the balancer and the transport
answer, and however attempts are repeated and failures dealt with. -/
theorem callWith_course (h : Handler σ) (plan : RetryPlan)
    (tolerate : FailedCall → CallError → Process Outcome) (r : Request) (s : σ) :
    let invocation := invokeWith plan.around tolerate r
    (match h.discover r.serviceKey s with
      | (.error e, s₁) =>
        invocation.trace h s = [.discovered r.serviceKey (.error e)] ∧
          invocation.run h s = (.error (.registry e), s₁)
      | (.ok candidates, s₁) =>
        match h.select (paramsOf r) candidates (h.cleanup candidates s₁) with
        | (none, s₂) =>
          invocation.trace h s = opening r candidates none ∧
            invocation.run h s = (.error (.noAvailableInstance r.serviceKey), s₂)
        | (some i, s₂) =>
          ∃ attempts outcome s₃, plan.Follows h r i s₂ attempts outcome s₃ ∧
            (∀ event ∈ attempts, RetryPlan.Attempts r i event) ∧
            match outcome with
            | .ok response =>
              invocation.trace h s =
                  opening r candidates (some i) ++ (attempts ++ [.released i]) ∧
                invocation.run h s = (.ok response, h.release i s₃)
            | .error e =>
              let handling := tolerate ⟨r, candidates, some i⟩ e
              invocation.trace h s = opening r candidates (some i) ++
                  (attempts ++ .released i :: handling.trace h (h.release i s₃)) ∧
                invocation.run h s = handling.run h (h.release i s₃)) ∧
    ∀ {α : Type} (serializer : Serializer) (shape : Shape α),
      let call := callWith plan.around tolerate serializer shape r
      call.trace h s = invocation.trace h s ∧ (call.run h s).2 = (invocation.run h s).2 ∧
        (call.run h s).1 = match (invocation.run h s).1 with
          | .error e => .error e
          | .ok response =>
            match response.fault, response.data with
            | some text, _ => .error (.remote text)
            | none, none => .ok none
            | none, some data => match serializer.decode shape data with
              | .ok x => .ok (some x)
              | .error e => .error (.value e) := by
  intro invocation
  refine ⟨?_, fun serializer shape => ?_⟩
  · split
    · next hfound => exact invokeWith_undiscovered _ tolerate hfound
    next candidates s₁ hfound =>
    split
    · next hchoice => exact invokeWith_unselected _ tolerate hfound hchoice
    next i s₂ hchoice =>
    have hfollows := plan.follows_around h r i s₂
    cases htask : (plan.around (.sendTo r i)).run h s₂ with
    | mk outcome s₃ =>
      rw [htask] at hfollows
      have hselected := invokeWith_selected plan.around tolerate hfound hchoice htask
      refine ⟨_, outcome, s₃, hfollows, hfollows.attempts, ?_⟩
      cases outcome with
      | ok response => exact hselected
      | error e => exact hselected
  · intro call
    have hrun : call.run h s = _ := Process.run_map h (answerOf serializer shape) invocation s
    refine ⟨Process.trace_map h _ _ s, by rw [hrun], ?_⟩
    rw [hrun]
    cases (invocation.run h s).1 with
    | error e => rfl
    | ok response => exact answerOf_ok serializer shape response

/-- The pipelines that can be configured are such calls. -/
theorem call_eq_callWith {α : Type} (p : Pipeline) (shape : Shape α) (r : Request) :
    p.call shape r = callWith p.retry.plan.around p.tolerance.apply p.serializer shape r := by
  have hretry : p.retry.run = p.retry.plan.around := funext fun task => p.retry.run_eq_around task
  rw [call, hretry]

end Pipeline
end RemoteCall
