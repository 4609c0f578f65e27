import RemoteCall.Proofs.Registry.Turns

/-! The records of instances.

The record of an instance reads back as the instance (`readRecord_recordOf`), and its key
tells the service: a key under the root of a service whose name has no stroke in it is the
key of a node of that service (`serviceOf?_of_under`). So where only records lie under the
root of all records, a discovery finds nodes of the service that was asked for, each under
its own key (`found_of_discover`). -/
namespace RemoteCall.Registry

/-! ### Keys -/

/-- All in front of the first stroke. -/
theorem serviceOf?_append {service : String} (h : '/' ∉ service.toList) {node : String}
    {rest : List Char} (hnode : node.toList = service.toList ++ '/' :: rest) :
    Cache.serviceOf? node = some service := by
  have hfront : ∀ c ∈ service.toList, (decide (c ≠ '/')) = true := fun c hc =>
    decide_eq_true fun heq => h (heq ▸ hc)
  rw [Cache.serviceOf?, hnode, List.dropWhile_append_of_pos hfront, List.takeWhile_append_of_pos hfront]
  simp [String.ofList_toList]

theorem serviceOf?_of_under {service node : String} (hservice : '/' ∉ service.toList)
    (h : Store.under (Client.serviceRoot service) (recordKey node) = true) :
    Cache.serviceOf? node = some service := by
  rw [Store.under, List.isPrefixOf_iff_prefix] at h
  simp only [Client.serviceRoot, recordKey, String.toList_append, List.prefix_append_right_inj] at h
  obtain ⟨rest, hrest⟩ := h
  have hnode : node.toList = service.toList ++ '/' :: rest := by
    rw [← hrest, List.append_assoc]
    rfl
  exact serviceOf?_append hservice hnode

namespace Client

/-! ### Records -/

theorem legible_instance (i : Instance) : Json.Legible Instance.shape i := by
  have hnames : ["service_name", "service_version", "service_host", "service_port",
      "service_group"].Nodup := by decide
  exact ⟨hnames, trivial, trivial, trivial, trivial, trivial, trivial⟩

/-- **The record of an instance reads back as the instance.** -/
theorem readRecord_recordOf (key : String) (i : Instance) :
    readRecord key (recordOf i) = .ok i := by
  have hdecode : Json.decode Instance.shape (Utf8.encode (recordOf i)) = .ok i :=
    Json.decode_encode (legible_instance i)
  rw [readRecord]
  simp only [hdecode]

end Client

/-- One of several printers, which differ in their ports. -/
def printer (port : UInt16) : Instance := { name := "Printer", host := "a", port := port }

namespace Client

/-! ### Discoveries -/

theorem mem_of_mapM {α β ε : Type} {f : α → Except ε β} {xs : List α} {ys : List β}
    (h : xs.mapM f = .ok ys) {y : β} (hy : y ∈ ys) : ∃ x ∈ xs, f x = .ok y := by
  induction xs generalizing ys with
  | nil =>
    obtain rfl := Except.ok.inj h
    cases hy
  | cons x xs ih =>
    rw [List.mapM_cons] at h
    cases hx : f x with
    | error e =>
      rw [hx] at h
      cases h
    | ok z =>
      rw [hx] at h
      change (xs.mapM f).bind (fun zs => .ok (z :: zs)) = .ok ys at h
      cases hxs : xs.mapM f with
      | error e =>
        rw [hxs] at h
        cases h
      | ok zs =>
        rw [hxs] at h
        obtain rfl := Except.ok.inj h
        rcases List.mem_cons.1 hy with rfl | hy
        · exact ⟨x, List.mem_cons_self, hx⟩
        · obtain ⟨x', hx', hfx⟩ := ih hxs hy
          exact ⟨x', List.mem_cons_of_mem _ hx', hfx⟩

/-- What a scan finds stands in the store, live and under the key that was asked for. -/
theorem found_of_scan {s t : Store} {now : Nat} {root : String} {found : List (String × String)}
    (h : s.scan now root = (.ok found, t)) {key value : String} (hmem : (key, value) ∈ found) :
    ∃ e, (key, e) ∈ s.entries ∧ e.value = value ∧ e.live now = true ∧
      Store.under root key = true := by
  unfold Store.scan Store.online at h
  dsimp only at h
  split at h
  · obtain rfl := Except.ok.inj (congrArg Prod.fst h)
    obtain ⟨⟨key', e⟩, he, heq⟩ := List.mem_map.1 hmem
    obtain ⟨rfl, rfl⟩ := Prod.mk.inj heq
    rw [List.partition_eq_filter_filter] at he
    obtain ⟨hfound, hlive⟩ := List.mem_filter.1 he
    obtain ⟨hentry, hunder⟩ := List.mem_filter.1 hfound
    exact ⟨e, hentry, rfl, hlive, hunder⟩
  · cases congrArg Prod.fst h

/-- What a discovery finds has its key under the root of the service. -/
theorem found_of_discover {s t : Store} (hs : s.Genuine) {now : Nat} {service : String}
    {found : List Instance} (h : discover s now service = (.ok found, t)) {i : Instance}
    (hi : i ∈ found) : Store.under (serviceRoot service) (recordKey i.nodeKey) = true := by
  unfold discover at h
  split at h
  · next records t' hscan =>
    have hmap := congrArg Prod.fst h
    dsimp only at hmap
    obtain ⟨⟨key, text⟩, hrecord, hread⟩ := mem_of_mapM hmap hi
    obtain ⟨e, hentry, rfl, -, hunder⟩ := found_of_scan hscan hrecord
    have hroot : Store.under recordRoot key = true := by
      rw [Store.under, List.isPrefixOf_iff_prefix] at hunder ⊢
      rw [serviceRoot, recordKey, String.toList_append] at hunder
      exact (List.prefix_append _ _).trans hunder
    obtain ⟨j, rfl, hvalue⟩ := hs _ hentry hroot
    rw [hvalue] at hread
    obtain rfl : j = i := Except.ok.inj ((readRecord_recordOf _ j).symm.trans hread)
    exact hunder
  · cases congrArg Prod.fst h

end Client
end RemoteCall.Registry
