import RemoteCall.Proofs.Registry.Lists

/-! Which lists a cache takes.

A list is asked for in some generation of its service, and it is taken while that
generation lasts (`fill_while_lasts`). To forget a service, or a node of it, ends the generation
even if the cache never heard of the service. To forget everything ends the generations of
the services that the cache has heard of, and of no others (`ends`): what was asked for
a service that nobody had mentioned is still taken afterwards (`clear_spares_unknown`). -/
namespace RemoteCall.Registry.Cache

/-! ### Operations -/

/-- Everything that can be done to a cache. -/
inductive Op where
  | read (service : String)
  | generation (service : String)
  | write (service : String) (found : List Instance)
  | fill (service : String) (generation : Nat) (found : List Instance)
  | invalidate (service : String)
  | invalidateNode (node : String)
  | clear
  deriving DecidableEq, Repr

/-- Whether an operation forgets the list of a service. -/
def Op.forgets (service : String) : Op → Bool
  | invalidate other => other = service
  | invalidateNode node => serviceOf? node = some service
  | clear => true
  | read _ | generation _ | write _ _ | fill _ _ _ => false

def apply (c : Cache) : Op → Cache
  | .read _ | .generation _ => c
  | .write service found => c.write service found
  | .fill service generation found => (c.fill service generation found).2
  | .invalidate service => (c.invalidate service).2
  | .invalidateNode node => (c.invalidateNode node).2
  | .clear => c.clear

def run (c : Cache) (ops : List Op) : Cache := ops.foldl apply c

/-- Whether a service has a slot. -/
def knows (c : Cache) (service : String) : Bool := c.slots.contains service

/-- Whether an operation ends the generation of a service. -/
def ends (c : Cache) (service : String) (op : Op) : Bool :=
  op.forgets service && (op ≠ .clear || c.knows service)

/-- Whether the generation of a service lasts through some operations. -/
def lasts (c : Cache) (service : String) : List Op → Bool
  | [] => true
  | op :: rest => !c.ends service op && (c.apply op).lasts service rest

variable {c : Cache} {service other node : String} {op : Op}

/-! ### One operation -/

theorem generation_invalidate (c : Cache) (service other : String) :
    (c.invalidate service).2.generation other =
      c.generation other + (decide (service = other)).toNat := by
  by_cases h : service = other
  · subst h
    rw [Cache.generation, slot_invalidate_self, decide_eq_true rfl]
    rfl
  · rw [decide_eq_false h]
    exact congrArg Slot.generation (slot_invalidate_of_ne (Ne.symm h))

theorem generation_clear (c : Cache) (service : String) :
    c.clear.generation service = c.generation service + (c.knows service).toNat := by
  rw [Cache.generation, Cache.slot, clear,
    Dict.find?_map fun s : Slot => (⟨s.generation + 1, none⟩ : Slot), Cache.generation,
    Cache.slot, knows, Dict.contains]
  cases c.slots.find? service <;> rfl

/-- An operation moves on the generations that it ends, by one, and no others. -/
theorem generation_apply (c : Cache) (service : String) (op : Op) :
    (c.apply op).generation service = c.generation service + (c.ends service op).toNat := by
  cases op with
  | read _ | generation _ => rfl
  | write other found => exact generation_write c other service found
  | fill other generation found => exact generation_fill c other service generation found
  | invalidate other => simp [apply, generation_invalidate, ends, Op.forgets]
  | invalidateNode node =>
    simp only [apply, invalidateNode, ends, Op.forgets]
    cases serviceOf? node with
    | none => rfl
    | some other => simp [generation_invalidate]
  | clear => simp [apply, generation_clear, ends, Op.forgets]

theorem knows_setSlot (h : c.knows service = true) (other : String) (slot : Slot) :
    (c.setSlot other slot).knows service = true := by
  unfold knows Dict.contains setSlot at *
  by_cases hother : service = other
  · subst hother
    rw [Dict.find?_insert_self]
    rfl
  · rwa [Dict.find?_insert_of_ne hother]

/-- Nothing takes a slot away. -/
theorem knows_apply (h : c.knows service = true) (op : Op) : (c.apply op).knows service = true := by
  cases op with
  | read _ | generation _ => exact h
  | write other found => exact knows_setSlot h other _
  | fill other generation found =>
    simp only [apply, fill]
    split
    · exact knows_setSlot h other _
    · exact h
  | invalidate other => exact knows_setSlot h other _
  | invalidateNode node =>
    simp only [apply, invalidateNode]
    split
    · exact knows_setSlot h _ _
    · exact h
  | clear =>
    unfold knows Dict.contains at *
    simp only [apply, clear, Dict.find?_map fun s : Slot => (⟨s.generation + 1, none⟩ : Slot)]
    rwa [Option.isSome_map]

/-! ### Many operations -/

theorem generation_le_run (c : Cache) (service : String) (ops : List Op) :
    c.generation service ≤ (c.run ops).generation service := by
  induction ops generalizing c with
  | nil => exact Nat.le_refl _
  | cons op rest ih =>
    refine Nat.le_trans ?_ (ih (c.apply op))
    rw [generation_apply]
    exact Nat.le_add_right _ _

/-- **A generation number comes back only while its generation lasts.** -/
theorem generation_run (c : Cache) (service : String) (ops : List Op) :
    decide ((c.run ops).generation service = c.generation service) = c.lasts service ops := by
  induction ops generalizing c with
  | nil => exact decide_eq_true rfl
  | cons op rest ih =>
    have hop := generation_apply c service op
    rw [lasts]
    cases hends : c.ends service op with
    | false =>
      rw [hends] at hop
      rw [← ih, hop]
      rfl
    | true =>
      have hrest := generation_le_run (c.apply op) service rest
      rw [hends] at hop
      refine decide_eq_false fun heq => ?_
      have hrun : (c.run (op :: rest)).generation service =
          ((c.apply op).run rest).generation service := rfl
      simp only [Bool.toNat_true] at hop
      omega

/-- Once a service has a slot, everything that forgets it ends its generation. -/
theorem lasts_of_knows (h : c.knows service = true) (ops : List Op) :
    c.lasts service ops = ops.all fun op => !op.forgets service := by
  induction ops generalizing c with
  | nil => rfl
  | cons op rest ih =>
    rw [lasts, ih (knows_apply h op), List.all_cons, ends, h, Bool.or_true, Bool.and_true]

/-- Operations that do not forget a service let its generation last. -/
theorem lasts_of_not_forgets (c : Cache) {ops : List Op}
    (h : ∀ op ∈ ops, op.forgets service = false) : c.lasts service ops = true := by
  induction ops generalizing c with
  | nil => rfl
  | cons op rest ih =>
    rw [lasts, ends, h op List.mem_cons_self, ih _ fun op hop => h op (List.mem_cons_of_mem _ hop)]
    rfl

/-! ### Lists that are handed in -/

theorem read_write (c : Cache) (service other : String) (found : List Instance) :
    (c.write service found).read other = if other = service then some found else c.read other := by
  split
  · next h =>
    subst h
    rw [read, write, slot_setSlot_self]
  · next h => exact congrArg Slot.instances (slot_write_of_ne h found)

theorem fill_eq {generation : Nat} (h : c.generation service = generation)
    (found : List Instance) : c.fill service generation found = (true, c.write service found) :=
  if_pos h

theorem fill_ne {generation : Nat} (h : c.generation service ≠ generation)
    (found : List Instance) : c.fill service generation found = (false, c) :=
  if_neg h

/-- **A list is taken if the generation in which it was asked for lasts, and is refused
without a trace otherwise.** For a service with a slot, the generation lasts until something
forgets the service; for one without, a `clear` passes it by. -/
theorem fill_while_lasts (earlier between : List Op) (service : String) (found : List Instance) :
    let asked := run {} earlier
    let now := asked.run between
    let (taken, later) := now.fill service (asked.generation service) found
    taken = asked.lasts service between ∧
      (asked.knows service = true → taken = between.all fun op => !op.forgets service) ∧
      ((∀ op ∈ between, op.forgets service = false) → taken = true) ∧
      (taken = true → ∀ other,
        later.read other = (if other = service then some found else now.read other) ∧
          later.generation other = now.generation other) ∧
      (taken = false → later = now) := by
  intro asked now
  have hlasts := generation_run asked service between
  have hknows (h : asked.knows service = true) := lasts_of_knows h between
  by_cases h : now.generation service = asked.generation service
  · rw [fill_eq h]
    rw [decide_eq_true h] at hlasts
    refine ⟨hlasts, fun hslot => hlasts.trans (hknows hslot), fun _ => rfl, fun _ other => ?_,
      fun hfalse => absurd hfalse.symm Bool.false_ne_true⟩
    exact ⟨read_write now service other found, generation_write now service other found⟩
  · rw [fill_ne h]
    rw [decide_eq_false h] at hlasts
    refine ⟨hlasts, fun hslot => hlasts.trans (hknows hslot), fun hall => ?_,
      fun htrue => absurd htrue Bool.false_ne_true, fun _ => rfl⟩
    rw [lasts_of_not_forgets asked hall] at hlasts
    cases hlasts

/-- A list of a service that nobody mentioned is taken although everything was forgotten since
it was asked for. -/
theorem clear_spares_unknown :
    let asked : Cache := {}
    let list : List Instance := [{ name := "U", host := "a", port := 1 }]
    let (taken, later) := (asked.run [.clear]).fill "U:1.0" (asked.generation "U:1.0") list
    (∃ op ∈ [Op.clear], op.forgets "U:1.0" = true) ∧
      taken = true ∧ later.read "U:1.0" = some list := by
  decide

end RemoteCall.Registry.Cache
