import RemoteCall.Proofs.Registry.Watches

/-! What can become of the lists in a cache.

The generation of a service only rises. A list that is there after something was forgotten was
there before, in the same generation (`Forgets`); one that is there after a list was handed in was
there before or is the one (`read_fill`). -/
namespace RemoteCall.Registry

namespace Cache
variable {c : Cache} {service other node : String} {slot : Slot}

theorem slot_setSlot_self (c : Cache) (service : String) (slot : Slot) :
    (c.setSlot service slot).slot service = slot := by
  rw [Cache.slot, setSlot, Dict.find?_insert_self]
  rfl

theorem slot_setSlot_of_ne (h : other ≠ service) :
    (c.setSlot service slot).slot other = c.slot other := by
  rw [Cache.slot, setSlot, Dict.find?_insert_of_ne h]
  rfl

theorem slot_invalidate_self (c : Cache) (service : String) :
    (c.invalidate service).2.slot service = ⟨c.generation service + 1, none⟩ :=
  slot_setSlot_self c service _

theorem slot_invalidate_of_ne (h : other ≠ service) :
    (c.invalidate service).2.slot other = c.slot other :=
  slot_setSlot_of_ne h

/-- What is left of a slot when everything is forgotten. -/
theorem slot_clear (c : Cache) (service : String) :
    (c.clear.slot service).instances = none ∧
      c.generation service ≤ (c.clear.slot service).generation := by
  rw [Cache.slot, clear, Dict.find?_map fun s : Slot => (⟨s.generation + 1, none⟩ : Slot),
    generation, Cache.slot]
  cases c.slots.find? service with
  | none => exact ⟨rfl, Nat.le_refl _⟩
  | some slot => exact ⟨rfl, Nat.le_succ _⟩

/-- How one cache may become another when no list is kept. -/
structure Forgets (c d : Cache) : Prop where
  generation : ∀ service, c.generation service ≤ d.generation service
  read : ∀ service found, d.read service = some found →
    c.read service = some found ∧ d.generation service = c.generation service

theorem Forgets.refl (c : Cache) : c.Forgets c where
  generation _ := Nat.le_refl _
  read _ _ h := ⟨h, rfl⟩

theorem forgets_invalidate (c : Cache) (service : String) : c.Forgets (c.invalidate service).2 where
  generation other := by
    by_cases h : other = service
    · subst h
      rw [Cache.generation, Cache.generation, slot_invalidate_self]
      exact Nat.le_succ _
    · exact Nat.le_of_eq (congrArg Slot.generation (slot_invalidate_of_ne h)).symm
  read other found hread := by
    by_cases h : other = service
    · subst h
      rw [read, slot_invalidate_self] at hread
      cases hread
    · rw [read, slot_invalidate_of_ne h] at hread
      exact ⟨hread, congrArg Slot.generation (slot_invalidate_of_ne h)⟩

theorem forgets_invalidateNode (c : Cache) (node : String) : c.Forgets (c.invalidateNode node).2 := by
  unfold invalidateNode
  split
  · exact forgets_invalidate c _
  · exact Forgets.refl c

theorem forgets_clear (c : Cache) : c.Forgets c.clear where
  generation service := (slot_clear c service).2
  read service found h := by
    rw [read, (slot_clear c service).1] at h
    cases h

theorem generation_invalidateNode (h : serviceOf? node = some service) (c : Cache) :
    (c.invalidateNode node).2.generation service = c.generation service + 1 := by
  rw [invalidateNode, h]
  exact congrArg Slot.generation (slot_invalidate_self c service)

theorem slot_write_of_ne (h : other ≠ service) (found : List Instance) :
    (c.write service found).slot other = c.slot other := slot_setSlot_of_ne h

theorem generation_write (c : Cache) (service other : String) (found : List Instance) :
    (c.write service found).generation other = c.generation other := by
  by_cases h : other = service
  · subst h
    rw [Cache.generation, write, slot_setSlot_self]
    rfl
  · exact congrArg Slot.generation (slot_write_of_ne h found)

theorem generation_fill (c : Cache) (service other : String) (generation : Nat)
    (found : List Instance) :
    (c.fill service generation found).2.generation other = c.generation other := by
  unfold fill
  split
  · exact generation_write c service other found
  · rfl

/-- A list that is there after one was handed in was there before, or is the one. -/
theorem read_fill {generation : Nat} {found list : List Instance}
    (h : (c.fill service generation found).2.read other = some list) :
    c.read other = some list ∨
      other = service ∧ list = found ∧ c.generation service = generation := by
  unfold fill at h
  split at h
  · next hgeneration =>
    by_cases hother : other = service
    · subst hother
      rw [read, write, slot_setSlot_self] at h
      exact .inr ⟨rfl, (Option.some.inj h).symm, hgeneration⟩
    · rw [read, slot_write_of_ne hother] at h
      exact .inl h
  · exact .inl h

end Cache
end RemoteCall.Registry
