import Mathlib.Data.List.TakeWhile
import RemoteCall.Proofs.Registry.Isolation
import RemoteCall.Proofs.Registry.Staleness

/-! Which service the end of a node is taken for.

A cache hears of nodes by their keys, and takes all in front of the first stroke for the key of the
service (`serviceOf?_nodeKey`). This is the service of the node, and the only one that is forgotten,
exactly if neither the name nor the version has a stroke in it; the host may be any text
(`invalidateNode_hits`). Otherwise the end of a node is taken for the end of another service, and
its own list stays (`invalidateNode_misses`). -/
namespace RemoteCall.Registry.Cache

variable {c : Cache} {service other node : String}

/-! ### The key of a service in the key of a node -/

/-- All in front of the first stroke of a service key, or all if there is none. -/
def front (service : String) : String := String.ofList (service.toList.takeWhile (· ≠ '/'))

theorem front_eq_iff : front service = service ↔ '/' ∉ service.toList := by
  rw [← String.toList_inj, front, String.toList_ofList, List.takeWhile_eq_self_iff]
  constructor
  · intro h hmem
    simpa using h '/' hmem
  · intro h x hx
    refine decide_eq_true ?_
    rintro rfl
    exact h hx

/-- The stroke behind the service key ends it, if none came before. -/
theorem serviceOf?_nodeKey (i : Instance) : serviceOf? i.nodeKey = some (front i.serviceKey) := by
  have hkey : i.nodeKey.toList = i.serviceKey.toList ++ '/' :: i.address.toList := toList_nodeKey i
  have hfront : i.nodeKey.toList.takeWhile (· ≠ '/') = i.serviceKey.toList.takeWhile (· ≠ '/') := by
    rw [hkey, List.takeWhile_append]
    split
    · next hall =>
      have hself := (List.takeWhile_prefix (· ≠ '/')).eq_of_length hall
      rw [hself, List.takeWhile_cons_of_neg (by simp), List.append_nil]
    · rfl
  have hrest : i.nodeKey.toList.dropWhile (· ≠ '/') ≠ [] := by
    intro hnil
    have hstroke := List.dropWhile_eq_nil_iff.1 hnil '/' (by simp [hkey])
    simp at hstroke
  unfold serviceOf?
  split
  · next hnil => exact absurd hnil hrest
  · rw [hfront, front]

theorem stroke_not_mem_serviceKey (i : Instance) :
    '/' ∉ i.serviceKey.toList ↔ '/' ∉ i.name.toList ∧ '/' ∉ i.version.toList := by
  have hkey : i.serviceKey.toList = i.name.toList ++ ':' :: i.version.toList :=
    toList_serviceKeyOf i.name i.version
  simp [hkey]

/-! ### What is forgotten -/

/-- Whether the end of a node makes a cache forget the list of a service, and only this: it says
whether there was one, and the generation of the service goes up. -/
structure Hits (c : Cache) (node service : String) : Prop where
  told : (c.invalidateNode node).1 = (c.read service).isSome
  dropped : (c.invalidateNode node).2.read service = none
  raised : (c.invalidateNode node).2.generation service = c.generation service + 1
  spared : ∀ other, other ≠ service → (c.invalidateNode node).2.read other = c.read other ∧
    (c.invalidateNode node).2.generation other = c.generation other

theorem hits_of_serviceOf? (h : serviceOf? node = some service) (c : Cache) :
    c.Hits node service := by
  have hnode : c.invalidateNode node = c.invalidate service := by rw [invalidateNode, h]
  refine ⟨by rw [hnode, invalidate], ?_, generation_invalidateNode h c, fun other hother => ?_⟩
  · rw [hnode, read, slot_invalidate_self]
  · rw [hnode, read, generation, slot_invalidate_of_ne hother]
    exact ⟨rfl, rfl⟩

/-- The generation of one service goes up. -/
theorem Hits.unique (h : c.Hits node service) (h' : c.Hits node other) : service = other := by
  by_contra hne
  have hsame := (h'.spared service hne).2
  rw [h.raised] at hsame
  exact Nat.succ_ne_self _ hsame

/-- **The end of a node forgets the service in front of the first stroke of its key**, which is its
own service exactly if neither the name nor the version of the instance has a stroke in it. -/
theorem invalidateNode_hits (c : Cache) (i : Instance) :
    c.Hits i.nodeKey (front i.serviceKey) ∧
      (c.Hits i.nodeKey i.serviceKey ↔ '/' ∉ i.name.toList ∧ '/' ∉ i.version.toList) := by
  have hfront := hits_of_serviceOf? (serviceOf?_nodeKey i) c
  refine ⟨hfront, ?_⟩
  rw [← stroke_not_mem_serviceKey, ← front_eq_iff]
  constructor
  · intro hown
    exact hfront.unique hown
  · intro hsame
    rwa [hsame] at hfront

/-- The list of a service with a stroke in its name stays when the node that is on it ends, and
nobody is told. -/
theorem invalidateNode_misses :
    let i : Instance := { name := "U/x", host := "h", port := 8080 }
    let c : Cache := write {} i.serviceKey [i]
    c.read i.serviceKey = some [i] ∧
      (c.invalidateNode i.nodeKey).1 = false ∧
      (c.invalidateNode i.nodeKey).2.read i.serviceKey = some [i] ∧
      (c.invalidateNode i.nodeKey).2.generation i.serviceKey = c.generation i.serviceKey ∧
      (c.invalidateNode i.nodeKey).2.generation "U" = c.generation "U" + 1 ∧
      ¬c.Hits i.nodeKey i.serviceKey := by
  intro i c
  have hlist : (c.invalidateNode i.nodeKey).2.read i.serviceKey = some [i] := by decide +kernel
  refine ⟨by decide +kernel, by decide +kernel, hlist, by decide +kernel, by decide +kernel, ?_⟩
  intro hhits
  cases hlist.symm.trans hhits.dropped

end RemoteCall.Registry.Cache
