import RemoteCall.Call.Retry

/-! Ways to repeat attempts.

Who repeats the attempts of a call is handed a task that makes one. What it does with it may depend
on what came of the attempts before, and on nothing else of the task: a `RetryPlan` makes attempts,
reports, waits, and ends with an outcome of its choice. -/
namespace RemoteCall

inductive RetryPlan where
  | finish (outcome : Outcome)
  /-- Make an attempt, and go on with what comes of it. -/
  | attempt (next : Outcome → RetryPlan)
  | report (attempt : Nat) (error : CallError) (next : RetryPlan)
  | pause (ms : Nat) (next : RetryPlan)

namespace RetryPlan

/-- The plan with a task to make its attempts. -/
def around (plan : RetryPlan) (task : Process Outcome) : Process Outcome :=
  match plan with
  | finish outcome => .done outcome
  | attempt next => task.bind fun outcome => (next outcome).around task
  | report n e next => .report n e (next.around task)
  | pause ms next => .pause ms (next.around task)

/-- One attempt, whatever comes of it. -/
def once : RetryPlan := attempt finish

/-- The attempts from number `attempt` on, of which `left` may follow the first. -/
def attempts (wait n : Nat) : (left : Nat) → RetryPlan
  | 0 => once
  | left + 1 => attempt fun
    | .ok response => finish (.ok response)
    | .error e =>
      if e.retryable then report n e (pause wait (attempts wait (n + 1) left))
      else finish (.error e)

end RetryPlan

def Retry.plan : Retry → RetryPlan
  | no => .once
  | fixedInterval maxAttempts wait => .attempts wait 1 (maxAttempts - 1)

/-! ### What is repeated as planned -/

theorem Process.bind_done {α : Type} (p : Process α) : p.bind done = p := by
  induction p with
  | done x => rfl
  | discover service next ih => exact congrArg (discover service) (funext ih)
  | cleanup current next ih => exact congrArg (cleanup current) ih
  | select params candidates next ih => exact congrArg (select params candidates) (funext ih)
  | send request target next ih => exact congrArg (send request target) (funext ih)
  | release target next ih => exact congrArg (release target) ih
  | report attempt error next ih => exact congrArg (report attempt error) ih
  | pause ms next ih => exact congrArg (pause ms) ih

namespace Retry
variable (task : Process Outcome)

theorem attempts_eq_around (wait n left : Nat) :
    attempts task wait n left = (RetryPlan.attempts wait n left).around task := by
  induction left generalizing n with
  | zero => exact task.bind_done.symm
  | succ left ih =>
    refine congrArg task.bind (funext fun outcome => ?_)
    cases outcome with
    | ok response => rfl
    | error e =>
      dsimp only
      split
      · rw [ih]
        rfl
      · rfl

/-- The ways of repeating that can be configured are plans. -/
theorem run_eq_around (r : Retry) : r.run task = r.plan.around task := by
  cases r with
  | no => exact task.bind_done.symm
  | fixedInterval maxAttempts wait => exact attempts_eq_around task wait 1 _

end Retry
end RemoteCall
