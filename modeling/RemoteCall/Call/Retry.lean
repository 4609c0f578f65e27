import RemoteCall.Call.Process
import RemoteCall.Config
import RemoteCall.Text.Duration

/-! Trying a failed call again.

With a fixed interval, an attempt that failed for a reason which may pass is reported
and followed by another after a pause, until one succeeds, fails for good, or the
attempts are used up. -/
namespace RemoteCall

inductive Retry where
  | no
  /-- At most so many attempts, with so many milliseconds in between. -/
  | fixedInterval (maxAttempts wait : Nat)
  deriving DecidableEq, Repr

namespace Retry

def defaultMaxAttempts : Nat := 3

def defaultWait : Nat := 3000

/-- At least one attempt is made. -/
def fixed (maxAttempts wait : Nat) : Retry := fixedInterval (max maxAttempts 1) wait

def ofKind : RetryKind → Retry
  | .no => no
  | .fixedInterval => fixed defaultMaxAttempts defaultWait

/-- The attempts from number `attempt` on, of which `left` may follow the first. -/
def attempts (task : Process Outcome) (wait attempt : Nat) : (left : Nat) → Process Outcome
  | 0 => task
  | left + 1 => task.bind fun
    | .ok response => .done (.ok response)
    | .error e =>
      if e.retryable then .report attempt e (.pause wait (attempts task wait (attempt + 1) left))
      else .done (.error e)

/-- The process with its repetitions. -/
def run (r : Retry) (task : Process Outcome) : Process Outcome :=
  match r with
  | no => task
  | fixedInterval maxAttempts wait => attempts task wait 1 (maxAttempts - 1)

/-- A description; `listening` says whether failed attempts are reported to anybody. -/
def describe (r : Retry) (listening : Bool) : String :=
  match r with
  | no => "NoRetry"
  | fixedInterval maxAttempts wait =>
    "FixedIntervalRetry \x7b max_attempts: " ++ toString maxAttempts ++ ", wait: "
      ++ Duration.text wait ++ ", listener: " ++ (if listening then "true" else "false") ++ " \x7d"

end Retry
end RemoteCall
