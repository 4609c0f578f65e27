import Mathlib.Data.List.Induction
import RemoteCall.Transport.History

/-! The courses of calls, read off the history.

A call is pending from its entry on, until an event concerns it (`course_pending`); the first
event that does settles it, and nothing that comes later changes that (`course_settled`). -/
namespace RemoteCall.Transport

variable {h : List Event} {ev : Event} {n : CallId} {c : ConnectionId} {lot : Ticket}

theorem course_concat (n : CallId) (h : List Event) (ev : Event) :
    course n (h ++ [ev]) = (course n h).next n ev := by
  rw [course, List.foldl_append]
  rfl

/-- Whatever settles a call is more than waiting. -/
theorem Event.lot_ne_waiting {id : UInt64} (hlot : ev.lot id c = some lot) : lot ≠ .waiting := by
  rintro rfl
  cases ev with
  | arrived d item =>
    rw [Event.lot] at hlot
    split at hlot
    · split at hlot <;> cases hlot
    · cases hlot
  | timedOut m | unsent m | failed d e =>
    rw [Event.lot] at hlot
    split at hlot <;> cases hlot
  | entered m d | received d chunk | shut => cases hlot

namespace Course

theorem next_entered : next n .outside (.entered n c) = .pending c := if_pos rfl

theorem next_outside (hev : ∀ c, ev ≠ .entered n c) : next n .outside ev = .outside := by
  cases ev with
  | entered m c => exact if_neg fun hm : m = n => hev c (by rw [hm])
  | _ => rfl

theorem next_hit (hlot : ev.lot (requestIdOf n) c = some lot) :
    next n (.pending c) ev = .settled c lot := by
  rw [next, hlot]

theorem next_miss (hlot : ev.lot (requestIdOf n) c = none) :
    next n (.pending c) ev = .pending c := by
  rw [next, hlot]

theorem next_eq_outside {course : Course} (hnext : course.next n ev = .outside) :
    course = .outside ∧ ∀ c, ev ≠ .entered n c := by
  cases course with
  | outside =>
    refine ⟨rfl, fun c hev => ?_⟩
    rw [hev, next_entered] at hnext
    cases hnext
  | pending c =>
    rw [next] at hnext
    split at hnext <;> cases hnext
  | settled c lot => cases hnext

theorem next_eq_pending {course : Course} (hnext : course.next n ev = .pending c) :
    course = .outside ∧ ev = .entered n c ∨
      course = .pending c ∧ ev.lot (requestIdOf n) c = none := by
  cases course with
  | outside =>
    by_cases hev : ∀ c, ev ≠ .entered n c
    · exact nomatch (next_outside hev).symm.trans hnext
    · simp only [Classical.not_forall, not_not] at hev
      obtain ⟨d, rfl⟩ := hev
      rw [next_entered] at hnext
      cases hnext
      exact .inl ⟨rfl, rfl⟩
  | pending d =>
    cases hlot : ev.lot (requestIdOf n) d with
    | some lot => exact nomatch (next_hit hlot).symm.trans hnext
    | none =>
      rw [next_miss hlot] at hnext
      cases hnext
      exact .inr ⟨rfl, hlot⟩
  | settled d lot => cases hnext

theorem next_eq_settled {course : Course} (hnext : course.next n ev = .settled c lot) :
    course = .settled c lot ∨ course = .pending c ∧ ev.lot (requestIdOf n) c = some lot := by
  cases course with
  | outside =>
    by_cases hev : ∀ c, ev ≠ .entered n c
    · exact nomatch (next_outside hev).symm.trans hnext
    · simp only [Classical.not_forall, not_not] at hev
      obtain ⟨d, rfl⟩ := hev
      exact nomatch next_entered.symm.trans hnext
  | pending d =>
    cases hlot : ev.lot (requestIdOf n) d with
    | some other =>
      rw [next_hit hlot] at hnext
      cases hnext
      exact .inr ⟨rfl, hlot⟩
    | none => exact nomatch (next_miss hlot).symm.trans hnext
  | settled d other => exact .inl hnext

end Course

/-- A call is pending from its entry on, until something concerns it. -/
theorem course_pending (hc : course n h = .pending c) :
    ∃ early late, h = early ++ .entered n c :: late ∧ course n early = .outside ∧
      ∀ ev ∈ late, ev.lot (requestIdOf n) c = none := by
  induction h using List.reverseRecOn with
  | nil => cases hc
  | append_singleton h ev ih =>
    rw [course_concat] at hc
    obtain ⟨hbefore, rfl⟩ | ⟨hbefore, hlot⟩ := Course.next_eq_pending hc
    · exact ⟨h, [], rfl, hbefore, fun x hx => absurd hx List.not_mem_nil⟩
    · obtain ⟨early, late, rfl, hearly, hlate⟩ := ih hbefore
      refine ⟨early, late ++ [ev], by simp, hearly, fun x hx => ?_⟩
      obtain hx | hx := List.mem_append.1 hx
      · exact hlate x hx
      · exact List.mem_singleton.1 hx ▸ hlot

/-- A call is settled by the first event after its entry that concerns it. -/
theorem course_settled (hc : course n h = .settled c lot) :
    ∃ early ev late, h = early ++ ev :: late ∧ course n early = .pending c ∧
      ev.lot (requestIdOf n) c = some lot := by
  induction h using List.reverseRecOn with
  | nil => cases hc
  | append_singleton h ev ih =>
    rw [course_concat] at hc
    obtain hbefore | ⟨hbefore, hlot⟩ := Course.next_eq_settled hc
    · obtain ⟨early, first, late, rfl, hearly, hlot⟩ := ih hbefore
      exact ⟨early, first, late ++ [ev], by simp, hearly, hlot⟩
    · exact ⟨h, ev, [], rfl, hbefore, hlot⟩

/-- A call that is outside has not entered. -/
theorem countP_isEntry (hc : course n h = .outside) : h.countP (Event.isEntry n) = 0 := by
  induction h using List.reverseRecOn with
  | nil => rfl
  | append_singleton h ev ih =>
    rw [course_concat] at hc
    obtain ⟨hbefore, hev⟩ := Course.next_eq_outside hc
    rw [List.countP_append, ih hbefore, List.countP_singleton, Nat.zero_add]
    refine if_neg fun hentry => ?_
    cases ev with
    | entered m c => exact hev c (by rw [show m = n from of_decide_eq_true hentry])
    | _ => cases hentry

end RemoteCall.Transport
