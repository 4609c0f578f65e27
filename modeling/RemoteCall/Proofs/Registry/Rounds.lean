import RemoteCall.Proofs.Registry.Visible
import RemoteCall.Registry.Round

/-! A renewal goes on.

A step of a renewal asks the store to extend the record of the first of its instances that are
left, or writes this record back if it was found gone (`Goes`). So it writes no record but that of
its first instance, as this was when the renewal began, and it is through with a node when the
store has said whether the record is extended, or is not there to be asked. -/
namespace RemoteCall.Registry
namespace Round
variable {r r' : Round} {s s' : Store} {now : Nat} {node : String}

/-- All that one step can do, to the renewal and to the store. -/
inductive Goes (s : Store) (now : Nat) (r : Round) : Round → Store → Prop where
  | through (hleft : r.left = []) : Goes s now r r s
  | refused {node : String} {i : Instance} {rest : Dict Instance}
      (hleft : r.left = (node, i) :: rest) (hoffline : s.available = false) :
      Goes s now r (r.pass rest false) s
  | extended {node : String} {i : Instance} {rest : Dict Instance} {e : Entry}
      (hleft : r.left = (node, i) :: rest) (honline : s.available = true)
      (hlive : s.live? now (recordKey node) = some e) :
      Goes s now r (r.pass rest true)
        { s with entries := s.entries.insert (recordKey node) { e with deadline := now + r.ttl } }
  /-- The record is gone, and will be written back by the next step. -/
  | lapsed {node : String} {i : Instance} {rest : Dict Instance}
      (hleft : r.left = (node, i) :: rest) (hgone : s.live? now (recordKey node) = none) :
      Goes s now r { r with gone := true } (s.expire now (recordKey node)).2
  | written {node : String} {i : Instance} {rest : Dict Instance}
      (hleft : r.left = (node, i) :: rest) (honline : s.available = true) :
      Goes s now r (r.pass rest true) { s with
        entries := s.entries.insert (recordKey node) ⟨Client.recordOf i, now + r.ttl⟩ }

theorem goes_step (r : Round) (s : Store) (now : Nat) :
    Goes s now r (r.step s now).1 (r.step s now).2 := by
  unfold step
  split
  · next hleft => exact .through hleft
  · next node i rest hleft =>
    cases havailable : s.available with
    | false =>
      rw [Store.put, Store.refresh_eq, Store.online_of_offline havailable,
        Store.online_of_offline havailable]
      split <;> exact .refused hleft havailable
    | true =>
      rw [Store.put, Store.refresh_eq, Store.online_of_available havailable,
        Store.online_of_available havailable]
      split
      · exact .written hleft havailable
      · cases hlive : s.live? now (recordKey node) with
        | some e => exact .extended hleft havailable hlive
        | none => exact .lapsed hleft hlive

theorem Goes.ttl (h : Goes s now r r' s') : r'.ttl = r.ttl := by
  cases h <;> rfl

theorem Goes.beat (h : Goes s now r r' s') : r'.beat = r.beat := by
  cases h <;> rfl

/-- What is left after a step was left before it. -/
theorem Goes.mem_left (h : Goes s now r r' s') {e : String × Instance} (he : e ∈ r'.left) :
    e ∈ r.left := by
  cases h with
  | through hleft => exact he
  | lapsed hleft hgone => exact he
  | refused hleft hoffline => exact hleft ▸ List.mem_cons_of_mem _ he
  | extended hleft honline hlive => exact hleft ▸ List.mem_cons_of_mem _ he
  | written hleft honline => exact hleft ▸ List.mem_cons_of_mem _ he

/-- A step that is about another node, or about none. -/
theorem Goes.spares (h : Goes s now r r' s') (hother : r.isAt node = false) :
    Store.Spares now (· = recordKey node) s s' := by
  have hkey {first : String} {i : Instance} {rest : Dict Instance}
      (hleft : r.left = (first, i) :: rest) : ¬recordKey first = recordKey node := by
    rw [recordKey_inj]
    simpa [isAt, hleft] using hother
  cases h with
  | through hleft => exact .refl s
  | refused hleft hoffline => exact .refl s
  | extended hleft honline hlive =>
    refine Store.spares_insert ?_ _
    exact hkey hleft
  | lapsed hleft hgone => exact Store.spares_expire s _
  | written hleft honline =>
    refine Store.spares_insert ?_ _
    exact hkey hleft

theorem Goes.awaits (h : Goes s now r r' s') (hother : r.isAt node = false) :
    r'.awaits node = r.awaits node := by
  have hrest {first : String} {i : Instance} {rest : Dict Instance}
      (hleft : r.left = (first, i) :: rest) : rest.contains node = r.left.contains node := by
    have hne : ¬node = first := fun h => by simp [isAt, hleft, h] at hother
    rw [hleft, Dict.contains, Dict.contains, Dict.find?, if_neg hne]
  cases h with
  | through hleft => rfl
  | lapsed hleft hgone => rfl
  | refused hleft hoffline => exact hrest hleft
  | extended hleft honline hlive => exact hrest hleft
  | written hleft honline => exact hrest hleft

theorem awaits_of_mem {i : Instance} (h : (node, i) ∈ r.left) : r.awaits node = true :=
  Dict.mem_keys.1 (List.mem_map_of_mem h)

theorem awaits_of_isAt (h : r.isAt node = true) : r.awaits node = true := by
  unfold isAt at h
  cases hleft : r.left with
  | nil => simp [hleft] at h
  | cons e rest =>
    obtain ⟨first, i⟩ := e
    rw [hleft] at h
    obtain rfl : first = node := by simpa using h
    exact awaits_of_mem (hleft ▸ List.mem_cons_self)

/-- What has yet to come to a node after a step had yet to before it. -/
theorem Goes.awaits_before (h : Goes s now r r' s') (hawaits : r'.awaits node = true) :
    r.awaits node = true := by
  obtain ⟨i, hi⟩ := Option.isSome_iff_exists.1 hawaits
  exact awaits_of_mem (h.mem_left (Dict.mem_of_find? hi))

/-- An entry was there before, or is as new as one can be. -/
theorem Goes.entry (h : Goes s now r r' s') {key : String} {e : Entry}
    (he : s'.entries.find? key = some e) :
    s.entries.find? key = some e ∨ e.deadline = now + r.ttl := by
  have hwritten {other : String} {new : Entry} (hnew : new.deadline = now + r.ttl)
      (he : (s.entries.insert other new).find? key = some e) :
      s.entries.find? key = some e ∨ e.deadline = now + r.ttl := by
    rw [Dict.find?_insert] at he
    split at he
    · obtain rfl := Option.some.inj he
      exact .inr hnew
    · exact .inl he
  cases h with
  | through hleft => exact .inl he
  | refused hleft hoffline => exact .inl he
  | extended hleft honline hlive => exact hwritten rfl he
  | written hleft honline => exact hwritten rfl he
  | @lapsed node i rest hleft hgone =>
    have hspares : Store.Spares now (fun _ => True) s (s.expire now (recordKey node)).2 :=
      Store.spares_expire s _
    rcases hspares.entry key trivial with hsame | hnone
    · exact .inl (hsame.symm.trans he)
    · rw [hnone] at he
      cases he

end Round
end RemoteCall.Registry
