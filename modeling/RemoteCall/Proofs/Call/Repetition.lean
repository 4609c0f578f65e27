import Mathlib.Order.Bounds.Defs
import RemoteCall.Call.Plan
import RemoteCall.Call.Trace

/-! How often a failed call is tried again.

Let attempts be made without end, each of them reported and followed by a pause if it failed: then
every attempt has its state (`stateBefore`) and gives its outcome (`outcomeAt`), and any sequence of
outcomes may come (`outcomeAt_inTurn`). With a fixed interval, the attempts are made up to the first
that settles the matter, or up to the limit, and nothing is done behind the last of them
(`fixed_course`).

The number of the attempt may be kept in a machine word (`counted`). It is raised only below the
limit, which is such a word as well, so there is always room for one more (`counted_eq`). -/
namespace RemoteCall

theorem Process.bind_assoc {α β γ : Type} (p : Process α) (f : α → Process β)
    (g : β → Process γ) : (p.bind f).bind g = p.bind fun x => (f x).bind g := by
  induction p with
  | done x => rfl
  | discover service next ih => exact congrArg (discover service) (funext ih)
  | cleanup current next ih => exact congrArg (cleanup current) ih
  | select params candidates next ih => exact congrArg (select params candidates) (funext ih)
  | send request target next ih => exact congrArg (send request target) (funext ih)
  | release target next ih => exact congrArg (release target) ih
  | report attempt error next ih => exact congrArg (report attempt error) ih
  | pause ms next ih => exact congrArg (pause ms) ih

namespace Retry
open Process (Handler Event)

variable {σ : Type}

/-! ### Attempts without end -/

section Endless
variable (h : Handler σ) (task : Process Outcome) (wait : Nat) (s : σ)

/-- The state in which an attempt is made that has so many before it. -/
def stateBefore : (before : Nat) → σ
  | 0 => s
  | k + 1 =>
    match task.run h (stateBefore k) with
    | (.ok _, s') => s'
    | (.error e, s') => h.pause wait (h.report (k + 1) e s')

/-- What an attempt gives that has so many before it. -/
def outcomeAt (before : Nat) : Outcome := (task.run h (stateBefore h task wait s before)).1

end Endless

/-- A handler that answers requests by the outcomes of a sequence, and counts them. -/
def inTurn (outcomes : Nat → Outcome) : Handler Nat where
  discover _ k := (.ok [], k)
  cleanup _ k := k
  select _ _ k := (none, k)
  send _ _ k := (outcomes k, k + 1)
  release _ k := k
  report _ _ k := k
  pause _ k := k

/-- Any outcomes may come one after another. -/
theorem outcomeAt_inTurn (outcomes : Nat → Outcome) (r : Request) (i : Instance) (wait : Nat) :
    outcomeAt (inTurn outcomes) (.sendTo r i) wait 0 = outcomes := by
  have hrun (k : Nat) : (Process.sendTo r i).run (inTurn outcomes) k = (outcomes k, k + 1) := rfl
  have hstate (k : Nat) : stateBefore (inTurn outcomes) (.sendTo r i) wait 0 k = k := by
    induction k with
    | zero => rfl
    | succ k ih =>
      rw [stateBefore, ih, hrun]
      cases outcomes k <;> rfl
  funext k
  rw [outcomeAt, hstate, hrun]

/-! ### One attempt -/

/-- Whether another attempt would be of no use. -/
def Settled : Outcome → Prop
  | .ok _ => True
  | .error e => e.retryable = false

section One
variable {h : Handler σ} {task : Process Outcome} {s s' : σ} {e : CallError}

theorem attempts_of_settled (wait n left : Nat) (hsettled : Settled (task.run h s).1) :
    (attempts task wait n left).trace h s = task.trace h s ∧
      (attempts task wait n left).run h s = task.run h s := by
  cases left with
  | zero => exact ⟨rfl, rfl⟩
  | succ left =>
    rw [attempts, Process.trace_bind, Process.run_bind]
    cases hrun : task.run h s with
    | mk outcome s' =>
      cases outcome with
      | ok response => exact ⟨List.append_nil _, rfl⟩
      | error e =>
        have hfinal : e.retryable = false := by
          rwa [hrun] at hsettled
        dsimp only
        rw [hfinal, if_neg Bool.false_ne_true]
        exact ⟨List.append_nil _, rfl⟩

theorem attempts_of_error (wait n left : Nat) (hrun : task.run h s = (.error e, s'))
    (he : e.retryable = true) :
    (attempts task wait n (left + 1)).trace h s =
        task.trace h s ++ [.reported n e, .paused wait] ++
          (attempts task wait (n + 1) left).trace h (h.pause wait (h.report n e s')) ∧
      (attempts task wait n (left + 1)).run h s =
        (attempts task wait (n + 1) left).run h (h.pause wait (h.report n e s')) := by
  rw [attempts, Process.trace_bind, Process.run_bind, hrun]
  dsimp only
  rw [if_pos he, List.append_assoc]
  exact ⟨rfl, rfl⟩

theorem error_of_not_settled (hsettled : ¬Settled (task.run h s).1) :
    ∃ e s', task.run h s = (.error e, s') ∧ e.retryable = true := by
  cases hrun : task.run h s with
  | mk outcome s' =>
    rw [hrun] at hsettled
    cases outcome with
    | ok response => exact absurd trivial hsettled
    | error e => exact ⟨e, s', rfl, Bool.not_eq_false _ ▸ hsettled⟩

end One

/-! ### All of them -/

section Course
variable (h : Handler σ) (task : Process Outcome) (wait : Nat) (s : σ)

/-- What is to be seen of attempts that failed and were followed by others, where so many were
made before the first of them. -/
def rounds (before : Nat) (errors : List CallError) : List Event :=
  (errors.zipIdx before).flatMap fun (e, k) =>
    task.trace h (stateBefore h task wait s k) ++ [.reported (k + 1) e, .paused wait]

/-- The errors of all attempts but the last, where so many were made before the first of them and
so many may follow it. -/
structure Failing (before left : Nat) (errors : List CallError) : Prop where
  given : ∀ k e, errors[k]? = some e → outcomeAt h task wait s (before + k) = .error e
  retryable : ∀ e ∈ errors, e.retryable = true
  le : errors.length ≤ left
  last : errors.length = left ∨ Settled (outcomeAt h task wait s (before + errors.length))

end Course

section Course
variable {h : Handler σ} {task : Process Outcome} {wait : Nat} {s : σ} {before left : Nat}
  {e : CallError} {errors : List CallError}

theorem Failing.of_last (hlast : left = 0 ∨ Settled (outcomeAt h task wait s before)) :
    Failing h task wait s before left [] where
  given _ _ hk := by cases hk
  retryable := List.forall_mem_nil _
  le := Nat.zero_le _
  last := hlast.imp_left Eq.symm

theorem Failing.cons (he : outcomeAt h task wait s before = .error e) (hretry : e.retryable = true)
    (hrest : Failing h task wait s (before + 1) left errors) :
    Failing h task wait s before (left + 1) (e :: errors) where
  given k e' hk := by
    cases k with
    | zero => exact Option.some.inj hk ▸ he
    | succ k => exact Nat.add_right_comm before 1 k ▸ hrest.given k e' hk
  retryable := List.forall_mem_cons.2 ⟨hretry, hrest.retryable⟩
  le := Nat.succ_le_succ hrest.le
  last := hrest.last.imp (congrArg (· + 1)) fun hlast =>
    Nat.add_right_comm before 1 errors.length ▸ hlast

/-- The attempts from one on are those that fail and the one behind them. -/
theorem attempts_course (h : Handler σ) (task : Process Outcome) (wait : Nat) (s : σ)
    (before left : Nat) :
    ∃ errors, Failing h task wait s before left errors ∧
      (attempts task wait (before + 1) left).trace h (stateBefore h task wait s before) =
        rounds h task wait s before errors ++
          task.trace h (stateBefore h task wait s (before + errors.length)) ∧
      (attempts task wait (before + 1) left).run h (stateBefore h task wait s before) =
        task.run h (stateBefore h task wait s (before + errors.length)) := by
  induction left generalizing before with
  | zero => exact ⟨[], .of_last (.inl rfl), rfl, rfl⟩
  | succ left ih =>
    by_cases hsettled : Settled (outcomeAt h task wait s before)
    · exact ⟨[], .of_last (.inr hsettled), attempts_of_settled _ _ _ hsettled⟩
    · obtain ⟨e, s', hrun, he⟩ := error_of_not_settled hsettled
      have hnext : stateBefore h task wait s (before + 1) =
          h.pause wait (h.report (before + 1) e s') := by
        rw [stateBefore, hrun]
      have hgiven : outcomeAt h task wait s before = .error e := congrArg Prod.fst hrun
      obtain ⟨errors, hfailing, htrace, hlast⟩ := ih (before + 1)
      obtain ⟨htrace', hlast'⟩ := attempts_of_error wait (before + 1) left hrun he
      have hlength : before + (e :: errors).length = before + 1 + errors.length :=
        (Nat.add_right_comm before 1 errors.length).symm
      refine ⟨e :: errors, hfailing.cons hgiven he, ?_, ?_⟩
      · rw [htrace', ← hnext, htrace, ← List.append_assoc, hlength]
        rfl
      · rw [hlast', ← hnext, hlast, hlength]

/-- The last attempt is the first that settles the matter, or the last that may be made. -/
theorem Failing.isLeast (hfailing : Failing h task wait s 0 left errors) :
    IsLeast {k | k + 1 = left + 1 ∨ Settled (outcomeAt h task wait s k)} errors.length := by
  constructor
  · have hlast := hfailing.last
    rw [Nat.zero_add] at hlast
    exact hlast.imp_left (congrArg (· + 1))
  · intro k hk
    obtain hlimit | hsettled := hk
    · exact Nat.succ.inj hlimit ▸ hfailing.le
    · refine Nat.le_of_not_lt fun hlt => ?_
      have hgiven := hfailing.given k errors[k] (List.getElem?_eq_getElem hlt)
      have hretry := hfailing.retryable _ (List.getElem_mem hlt)
      rw [Nat.zero_add] at hgiven
      have hfinal : Settled (.error errors[k]) := hgiven ▸ hsettled
      exact absurd (hfinal.symm.trans hretry) Bool.false_ne_true

end Course

/-! ### The number of the attempt as a word -/

/-- One more, unless there is no room for it in the word. -/
def next? (n : UInt32) : Option UInt32 := if n.toNat + 1 < UInt32.size then some (n + 1) else none

theorem toNat_of_next? {n n' : UInt32} (h : next? n = some n') : n'.toNat = n.toNat + 1 := by
  unfold next? at h
  split at h
  · next hroom =>
    obtain rfl := Option.some.inj h
    rw [UInt32.toNat_add]
    exact Nat.mod_eq_of_lt hroom
  · cases h

/-- The attempts from number `n` on, with the number in a word; no outcome if the word overflows. -/
def counted (task : Process Outcome) (maxAttempts : UInt32) (wait : Nat) (n : UInt32) :
    Process (Option Outcome) :=
  task.bind fun
    | .ok response => .done (some (.ok response))
    | .error e =>
      if _hmore : e.retryable = true ∧ n < maxAttempts then
        .report n.toNat e <| .pause wait <|
          match _hnext : next? n with
          | some n' => counted task maxAttempts wait n'
          | none => .done none
      else .done (some (.error e))
termination_by maxAttempts.toNat - n.toNat
decreasing_by
  have hlt : n.toNat < maxAttempts.toNat := _hmore.2
  have hnumber := toNat_of_next? _hnext
  omega

theorem next?_of_lt {n m : UInt32} (h : n < m) : next? n = some (n + 1) :=
  if_pos (Nat.lt_of_le_of_lt (Nat.succ_le_of_lt h) m.toNat_lt)

theorem counted_of_not_lt (task : Process Outcome) (wait : Nat) {maxAttempts n : UInt32}
    (hfull : ¬n < maxAttempts) : counted task maxAttempts wait n = task.map some := by
  rw [counted, Process.map]
  refine congrArg task.bind (funext fun outcome => ?_)
  cases outcome with
  | ok response => rfl
  | error e => exact dif_neg fun hmore => hfull hmore.2

/-- Below the limit there is room for one more. -/
theorem counted_of_lt (task : Process Outcome) (wait : Nat) {maxAttempts n : UInt32}
    (hlt : n < maxAttempts) :
    counted task maxAttempts wait n = task.bind fun
      | .ok response => .done (some (.ok response))
      | .error e =>
        if e.retryable then
          .report n.toNat e (.pause wait (counted task maxAttempts wait (n + 1)))
        else .done (some (.error e)) := by
  rw [counted]
  refine congrArg task.bind (funext fun outcome => ?_)
  cases outcome with
  | ok response => rfl
  | error e =>
    dsimp only
    by_cases he : e.retryable = true
    · rw [dif_pos ⟨he, hlt⟩, if_pos he]
      split
      · next n' hn =>
        rw [next?_of_lt hlt] at hn
        rw [Option.some.inj hn]
      · next hn =>
        rw [next?_of_lt hlt] at hn
        cases hn
    · rw [dif_neg fun hmore => he hmore.1, if_neg he]

/-- The word never overflows, and the attempts are those that a number counts. -/
theorem counted_eq (task : Process Outcome) (wait : Nat) {maxAttempts n : UInt32}
    (h : n ≤ maxAttempts) :
    counted task maxAttempts wait n =
      (attempts task wait n.toNat (maxAttempts.toNat - n.toNat)).map some := by
  generalize hleft : maxAttempts.toNat - n.toNat = left
  induction left generalizing n with
  | zero =>
    have hfull : ¬n < maxAttempts := fun hlt => by
      have hlt : n.toNat < maxAttempts.toNat := hlt
      omega
    exact counted_of_not_lt task wait hfull
  | succ left ih =>
    have hlt : n < maxAttempts := Nat.lt_of_sub_pos (hleft ▸ Nat.succ_pos left)
    have hnext : (n + 1).toNat = n.toNat + 1 := toNat_of_next? (next?_of_lt hlt)
    have hrest := ih (n := n + 1) (show (n + 1).toNat ≤ maxAttempts.toNat by omega) (by omega)
    rw [counted_of_lt task wait hlt, attempts, Process.map, Process.bind_assoc, hrest, hnext]
    refine congrArg task.bind (funext fun outcome => ?_)
    cases outcome with
    | ok response => rfl
    | error e =>
      dsimp only
      split <;> rfl

theorem toNat_max (n m : UInt32) : (max n m).toNat = max n.toNat m.toNat := by
  show (if n ≤ m then m else n).toNat = _
  split
  · next hle => exact (Nat.max_eq_right (UInt32.le_iff_toNat_le.1 hle)).symm
  · next hlt => exact (Nat.max_eq_left (Nat.le_of_not_le (mt UInt32.le_iff_toNat_le.2 hlt))).symm

/-- **A fixed interval makes the attempts that it should, and nothing else.** Its attempts end with
the first that succeeds or fails for good, or with the last that may be made. Every one before is
reported by its number with its error and followed by the pause, and what the last one gives is the
result. The number never overflows its word, and with no more than one attempt there is no
difference to making no other. -/
theorem fixed_course (h : Handler σ) (task : Process Outcome) (maxAttempts : UInt32) (wait : Nat)
    (s : σ) :
    let repeated := (fixed maxAttempts.toNat wait).run task
    let state := stateBefore h task wait s
    let outcome := outcomeAt h task wait s
    (∃ errors : List CallError,
      IsLeast {k | k + 1 = max maxAttempts.toNat 1 ∨ Settled (outcome k)} errors.length ∧
      (∀ k e, errors[k]? = some e → outcome k = .error e) ∧
      repeated.trace h s = (errors.zipIdx.flatMap fun (e, k) =>
          task.trace h (state k) ++ [.reported (k + 1) e, .paused wait]) ++
        task.trace h (state errors.length) ∧
      repeated.run h s = task.run h (state errors.length) ∧
      (repeated.run h s).1 = outcome errors.length) ∧
    counted task (max maxAttempts 1) wait 1 = repeated.map some ∧
    no.run task = (fixed 0 wait).run task ∧ no.run task = (fixed 1 wait).run task := by
  intro repeated state outcome
  obtain ⟨errors, hfailing, htrace, hrun⟩ :=
    attempts_course h task wait s 0 (max maxAttempts.toNat 1 - 1)
  simp only [Nat.zero_add] at htrace hrun
  have hlimit : (max maxAttempts 1).toNat = max maxAttempts.toNat 1 := toNat_max maxAttempts 1
  refine ⟨⟨errors, ?_, fun k e hk => ?_, htrace, hrun, congrArg Prod.fst hrun⟩, ?_, rfl, rfl⟩
  · have hleast := hfailing.isLeast
    rwa [Nat.sub_add_cancel (Nat.le_max_right _ 1)] at hleast
  · have hgiven := hfailing.given k e hk
    rwa [Nat.zero_add] at hgiven
  · have hone : (1 : UInt32) ≤ max maxAttempts 1 :=
      UInt32.le_iff_toNat_le.2 (hlimit.symm ▸ Nat.le_max_right maxAttempts.toNat 1)
    rw [counted_eq task wait hone, hlimit]
    rfl

end Retry
end RemoteCall
