/-! Lists with one entry changed.

Machines change one entry of a list at a time. What adds up over the list moves by what the
entry weighs before and after (`countP_modify`, `count_flatMap_modify`). -/
namespace RemoteCall

variable {α : Type} {l : List α} {i : Nat} {x : α}

theorem countP_modify (h : l[i]? = some x) (f : α → α) (q : α → Bool) :
    (l.modify i f).countP q + (q x).toNat = l.countP q + (q (f x)).toNat := by
  induction l generalizing i with
  | nil => simp at h
  | cons y rest ih =>
    cases i with
    | zero =>
      obtain rfl : y = x := by simpa using h
      simp only [List.modify_zero_cons, List.countP_cons]
      cases q y <;> cases q (f y) <;> simp
    | succ i =>
      have := ih (by simpa using h)
      simp only [List.modify_succ_cons, List.countP_cons]
      omega

theorem count_flatMap_modify (h : l[i]? = some x) (f : α → α) (g : α → List Nat) (c : Nat) :
    ((l.modify i f).flatMap g).count c + (g x).count c =
      (l.flatMap g).count c + (g (f x)).count c := by
  induction l generalizing i with
  | nil => simp at h
  | cons y rest ih =>
    cases i with
    | zero =>
      obtain rfl : y = x := by simpa using h
      simp only [List.modify_zero_cons, List.flatMap_cons, List.count_append]
      omega
    | succ i =>
      have := ih (by simpa using h)
      simp only [List.modify_succ_cons, List.flatMap_cons, List.count_append]
      omega

/-- An entry of a list with one entry changed is an old one or the changed one. -/
theorem mem_modify (h : l[i]? = some x) {f : α → α} {y : α} (hy : y ∈ l.modify i f) :
    y ∈ l ∨ y = f x := by
  obtain ⟨j, hj⟩ := List.getElem?_of_mem hy
  by_cases hij : i = j
  · subst hij
    rw [List.getElem?_modify_eq, h] at hj
    exact .inr (by simpa using hj.symm)
  · rw [List.getElem?_modify_ne f l hij] at hj
    exact .inl (List.mem_of_getElem? hj)

theorem mem_modify_self (h : l[i]? = some x) (f : α → α) : f x ∈ l.modify i f :=
  List.mem_of_getElem? (by rw [List.getElem?_modify_eq, h]; rfl)

/-- An entry of a list is the one that changes, or it stays. -/
theorem mem_modify_of_mem (h : l[i]? = some x) (f : α → α) {y : α} (hy : y ∈ l) :
    y = x ∨ y ∈ l.modify i f := by
  obtain ⟨j, hj⟩ := List.getElem?_of_mem hy
  by_cases hij : i = j
  · subst hij
    exact .inl (Option.some.inj (hj.symm.trans h))
  · exact .inr (List.mem_of_getElem? ((List.getElem?_modify_ne f l hij).trans hj))

/-- What stands at a place of a list with one entry changed. -/
theorem of_getElem?_modify (h : l[i]? = some x) {f : α → α} {j : Nat} {y : α}
    (hy : (l.modify i f)[j]? = some y) : j = i ∧ y = f x ∨ j ≠ i ∧ l[j]? = some y := by
  by_cases hij : j = i
  · subst hij
    rw [List.getElem?_modify_eq, h] at hy
    exact .inl ⟨rfl, (Option.some.inj hy).symm⟩
  · rw [List.getElem?_modify_ne f l (Ne.symm hij)] at hy
    exact .inr ⟨hij, hy⟩

/-- A change that leaves the entry as it is. -/
theorem modify_of_fixed (h : l[i]? = some x) {f : α → α} (hf : f x = x) : l.modify i f = l := by
  refine List.ext_getElem? fun j => ?_
  rw [List.getElem?_modify]
  by_cases hij : i = j
  · rw [← hij, h]
    simp [hf]
  · simp [hij]

/-- Counts take no notice of what they do not look at. -/
theorem countP_modify_of_eq (f : α → α) (q : α → Bool) (h : ∀ x, q (f x) = q x) (l : List α)
    (i : Nat) : (l.modify i f).countP q = l.countP q := by
  cases hi : l[i]? with
  | none => rw [List.modify_eq_self (by simpa using hi)]
  | some x =>
    have := countP_modify hi f q
    rw [h x] at this
    exact Nat.add_right_cancel this

theorem map_modify {β : Type} (f : α → α) (g : β → β) (k : α → β) (h : ∀ x, k (f x) = g (k x))
    (l : List α) (i : Nat) : (l.modify i f).map k = (l.map k).modify i g := by
  induction l generalizing i with
  | nil => simp
  | cons y rest ih => cases i <;> simp [h, ih]

/-- What a change leaves alone is the same in the whole list. -/
theorem map_modify_of_eq {β : Type} (f : α → α) (k : α → β) (h : ∀ x, k (f x) = k x) (l : List α)
    (i : Nat) : (l.modify i f).map k = l.map k := by
  rw [map_modify f id k h, List.modify_id]

end RemoteCall
