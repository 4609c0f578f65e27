import RemoteCall.Call.Tolerance
import RemoteCall.Call.Trace

/-! What the other candidates are asked when a call has failed.

Candidates are told apart by their addresses, so an instance that failed is not asked again under
another name: it is as if it were no candidate (`tryOthers_eq`). The others are asked one after
another for as long as they refuse (`Refused`), and only the latest error is kept
(`tryOthers_append`). What comes of it is always a response (`failOver_course`): that of the first
candidate that gives one, or word of the latest error. -/
namespace RemoteCall.Tolerance
open Process (Handler Event)

variable {σ : Type} {h : Handler σ} {r : Request} {s s₁ : σ}
  {refused : List (Instance × CallError)}

/-! ### Who is asked -/

/-- The candidates that have another address than the instance that failed. -/
def others (failed : Option Instance) (candidates : List Instance) : List Instance :=
  candidates.filter fun i => ∀ f ∈ failed, i.address ≠ f.address

theorem alreadyFailed_eq_false {failed : Option Instance} {i : Instance} :
    alreadyFailed failed i = false ↔ ∀ f ∈ failed, i.address ≠ f.address := by
  cases failed with
  | none => simp [alreadyFailed]
  | some f => simp [alreadyFailed, eq_comm]

/-- An instance that failed already is passed over. -/
theorem tryOthers_eq (r : Request) (failed : Option Instance) (last : CallError)
    (candidates : List Instance) :
    tryOthers r failed last candidates = tryOthers r none last (others failed candidates) := by
  induction candidates generalizing last with
  | nil => rfl
  | cons i rest ih =>
    rw [tryOthers, others, List.filter_cons]
    cases hi : alreadyFailed failed i with
    | true =>
      have hsame : ¬∀ f ∈ failed, i.address ≠ f.address := fun hne => by
        rw [alreadyFailed_eq_false.2 hne] at hi
        cases hi
      rw [if_pos rfl, if_neg (by simpa using hsame)]
      exact ih last
    | false =>
      rw [if_neg Bool.false_ne_true, if_pos (decide_eq_true (alreadyFailed_eq_false.1 hi))]
      refine congrArg (Process.send r i) (funext fun outcome => ?_)
      cases outcome with
      | ok response => rfl
      | error e => exact ih e

/-! ### One of them -/

section One
variable (last : CallError) (rest : List Instance) {i : Instance} {e : CallError}
  {response : Response}

theorem tryOthers_error (hsend : h.send r i s = (.error e, s₁)) :
    (tryOthers r none last (i :: rest)).trace h s =
        .sent r i (.error e) :: (tryOthers r none e rest).trace h s₁ ∧
      (tryOthers r none last (i :: rest)).run h s = (tryOthers r none e rest).run h s₁ := by
  simp [tryOthers, alreadyFailed, Process.trace, Process.run, hsend]

theorem tryOthers_ok (hsend : h.send r i s = (.ok response, s₁)) :
    (tryOthers r none last (i :: rest)).trace h s = [.sent r i (.ok response)] ∧
      (tryOthers r none last (i :: rest)).run h s =
        (.ok { response with message := overMessage }, s₁) := by
  simp [tryOthers, alreadyFailed, Process.trace, Process.run, hsend]

end One

/-! ### Refusals -/

/-- Some instances are asked one after another, and each of them answers with its error. -/
inductive Refused (h : Handler σ) (r : Request) : List (Instance × CallError) → σ → σ → Prop where
  | nobody (s : σ) : Refused h r [] s s
  | first {i : Instance} {e : CallError} {rest : List (Instance × CallError)} {s s₁ s₂ : σ} :
      h.send r i s = (.error e, s₁) → Refused h r rest s₁ s₂ → Refused h r ((i, e) :: rest) s s₂

/-- Instances that are asked in turn all refuse, or there is a first one that does not. -/
theorem exists_refused (h : Handler σ) (r : Request) (instances : List Instance) (s : σ) :
    ∃ refused s₁, Refused h r refused s s₁ ∧
      (instances = refused.map Prod.fst ∨
        ∃ i late response s₂, instances = refused.map Prod.fst ++ i :: late ∧
          h.send r i s₁ = (.ok response, s₂)) := by
  induction instances generalizing s with
  | nil => exact ⟨[], s, .nobody s, .inl rfl⟩
  | cons i rest ih =>
    cases hsend : h.send r i s with
    | mk outcome s₁ =>
      cases outcome with
      | ok response => exact ⟨[], s, .nobody s, .inr ⟨i, rest, response, s₁, rfl, hsend⟩⟩
      | error e =>
        obtain ⟨refused, s₂, hrefused, hrest⟩ := ih s₁
        refine ⟨(i, e) :: refused, s₂, .first hsend hrefused, ?_⟩
        obtain rfl | ⟨j, late, response, s₃, rfl, hanswer⟩ := hrest
        · exact .inl rfl
        · exact .inr ⟨j, late, response, s₃, rfl, hanswer⟩

/-- What is to be seen of refusals. -/
def refusals (r : Request) (refused : List (Instance × CallError)) : List Event :=
  refused.map fun (i, e) => .sent r i (.error e)

/-- The latest error, where `first` is the one before all refusals. -/
def latest (first : CallError) (refused : List (Instance × CallError)) : CallError :=
  (refused.map Prod.snd).getLastD first

theorem latest_cons (first : CallError) (x : Instance × CallError)
    (rest : List (Instance × CallError)) : latest first (x :: rest) = latest x.2 rest :=
  List.getLastD_cons

/-- Behind refusals the next ones are asked, and the latest error is kept. -/
theorem tryOthers_append (hrefused : Refused h r refused s s₁) (last : CallError)
    (late : List Instance) :
    (tryOthers r none last (refused.map Prod.fst ++ late)).trace h s =
        refusals r refused ++ (tryOthers r none (latest last refused) late).trace h s₁ ∧
      (tryOthers r none last (refused.map Prod.fst ++ late)).run h s =
        (tryOthers r none (latest last refused) late).run h s₁ := by
  induction hrefused generalizing last with
  | nobody s => exact ⟨rfl, rfl⟩
  | @first i e rest s s₁ s₂ hsend _ ih =>
    obtain ⟨htrace, hrun⟩ := ih e
    obtain ⟨hasked, hlater⟩ := tryOthers_error last (rest.map Prod.fst ++ late) hsend
    rw [List.map_cons, List.cons_append, latest_cons, hasked, hlater, htrace, hrun]
    exact ⟨rfl, rfl⟩

/-- **The other candidates are asked once each, in order, until one of them answers**, whatever
they answer and however that depends on what was asked before. The answer is handed on under another
message; without any there is a response that tells the latest error. -/
theorem failOver_course (h : Handler σ) (call : FailedCall) (e : CallError) (s : σ) :
    let handling := failOver.apply call e
    ∃ refused s₁, Refused h call.request refused s s₁ ∧
      ((∃ i late response s₂,
          others call.failed call.candidates = refused.map Prod.fst ++ i :: late ∧
          h.send call.request i s₁ = (.ok response, s₂) ∧
          handling.trace h s =
            refusals call.request refused ++ [.sent call.request i (.ok response)] ∧
          handling.run h s = (.ok { response with message := "fail-over succeeded" }, s₂)) ∨
        (others call.failed call.candidates = refused.map Prod.fst ∧
          handling.trace h s = refusals call.request refused ∧
          handling.run h s = (.ok { data := none, dataType := none, message := exhaustedMessage,
                                    fault := some (latest e refused).message }, s₁))) := by
  intro handling
  have hhandling : handling = tryOthers call.request none e (others call.failed call.candidates) :=
    tryOthers_eq call.request call.failed e call.candidates
  obtain ⟨refused, s₁, hrefused, hothers⟩ :=
    exists_refused h call.request (others call.failed call.candidates) s
  refine ⟨refused, s₁, hrefused, ?_⟩
  rw [hhandling]
  obtain hothers | ⟨i, late, response, s₂, hothers, hanswer⟩ := hothers
  · right
    obtain ⟨htrace, hrun⟩ := tryOthers_append hrefused e []
    rw [List.append_nil] at htrace hrun
    rw [hothers, htrace, hrun]
    exact ⟨rfl, List.append_nil _, rfl⟩
  · left
    obtain ⟨htrace, hrun⟩ := tryOthers_append hrefused e (i :: late)
    obtain ⟨hsent, hgiven⟩ := tryOthers_ok (latest e refused) late hanswer
    refine ⟨i, late, response, s₂, hothers, hanswer, ?_⟩
    rw [hothers, htrace, hrun, hsent, hgiven]
    exact ⟨rfl, rfl⟩

end RemoteCall.Tolerance
