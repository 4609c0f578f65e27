import RemoteCall.Proofs.Registry.Leases
import RemoteCall.Proofs.Registry.Records

/-! What clients change of what can be seen.

Most of what a client does leaves the records of others as they are: it may drop what nobody can
see, but no more (`Store.Spares`). What it does to a record of its own is one of three things:
the record is written, deleted, or renewed, and a renewal writes a record back that cannot be
seen any more (`live?_renewAll`). -/
namespace RemoteCall.Registry

/-! ### The store -/

namespace Store

/-- One store became the other at a time, and under the keys that are kept nothing was written
and nothing that can be seen has changed. -/
structure Spares (now : Nat) (kept : String → Prop) (s t : Store) : Prop where
  sorted : s.entries.Sorted → t.entries.Sorted
  available : t.available = s.available
  live : ∀ key, kept key → t.live? now key = s.live? now key
  entry : ∀ key, kept key →
    t.entries.find? key = s.entries.find? key ∨ t.entries.find? key = none

section Sparing
variable {now : Nat} {kept : String → Prop} {s t u : Store} {key value : String} {ttl : Nat}

theorem Spares.refl (s : Store) : Spares now kept s s where
  sorted h := h
  available := rfl
  live _ _ := rfl
  entry _ _ := .inl rfl

theorem Spares.trans (h : Spares now kept s t) (h' : Spares now kept t u) :
    Spares now kept s u where
  sorted hs := h'.sorted (h.sorted hs)
  available := h'.available.trans h.available
  live key hkey := (h'.live key hkey).trans (h.live key hkey)
  entry key hkey := by
    rcases h'.entry key hkey with hsame | hnone
    · rw [hsame]
      exact h.entry key hkey
    · exact .inr hnone

theorem spares_online {α : Type} {f : α × Store} (h : Spares now kept s f.2) :
    Spares now kept s (s.online f).2 := by
  unfold online
  split
  · exact h
  · exact .refl s

theorem find?_drop (s : Store) (event : Event) (other : String) :
    (s.drop event).entries.find? other = s.entries.find? other ∨
      (s.drop event).entries.find? other = none := by
  rw [drop, Dict.find?_erase]
  split
  · exact .inr rfl
  · exact .inl rfl

theorem find?_deleted (s : Store) (now : Nat) (key other : String) :
    (s.deleted now key).entries.find? other = s.entries.find? other ∨
      (s.deleted now key).entries.find? other = none := by
  unfold deleted
  split
  · split
    · exact find?_drop s _ other
    · exact find?_drop s _ other
  · exact .inl rfl

theorem spares_expire (s : Store) (key : String) : Spares now kept s (s.expire now key).2 where
  sorted hs := (expire_keeps hs now key).1
  available := by
    unfold expire
    split
    · split <;> rfl
    · rfl
  live other _ := live?_expire s now key other
  entry other _ := by
    unfold expire
    split
    · split
      · exact .inl rfl
      · exact find?_drop s _ other
    · exact .inl rfl

theorem spares_expireAll (s : Store) (keys : List String) :
    Spares now kept s (s.expireAll now keys).2 := by
  induction keys generalizing s with
  | nil => exact .refl s
  | cons key rest ih => exact (spares_expire s key).trans (ih _)

theorem spares_get (key : String) : Spares now kept s (s.get now key).2 := by
  rw [get_eq]
  exact spares_online (spares_expire s key)

theorem spares_scan (root : String) : Spares now kept s (s.scan now root).2 := by
  rw [scan_eq]
  exact spares_online (spares_expireAll s _)

theorem spares_sweep : Spares now kept s (s.sweep now).2 := spares_expireAll s _

theorem spares_insert (hkey : ¬kept key) (e : Entry) :
    Spares now kept s { s with entries := s.entries.insert key e } where
  sorted hs := hs.insert key e
  available := rfl
  live other hother := by
    rw [live?_insert, if_neg]
    rintro rfl
    exact hkey hother
  entry other hother := by
    refine .inl (Dict.find?_insert_of_ne ?_ e _)
    rintro rfl
    exact hkey hother

theorem spares_put (hkey : ¬kept key) : Spares now kept s (s.put now key value ttl).2 :=
  spares_online (f := ((), _)) (spares_insert hkey _)

theorem spares_refresh (hkey : ¬kept key) : Spares now kept s (s.refresh now key ttl).2 := by
  rw [refresh_eq]
  refine spares_online ?_
  split
  · exact spares_insert hkey _
  · exact spares_expire s key

theorem spares_delete (hkey : ¬kept key) : Spares now kept s (s.delete now key).2 := by
  rw [delete_eq]
  refine spares_online ⟨fun hs => (deleted_keeps hs now key).1, ?_, fun other hother => ?_,
    fun other _ => find?_deleted s now key other⟩
  · show (s.deleted now key).available = s.available
    unfold deleted
    split
    · split <;> rfl
    · rfl
  · show (s.deleted now key).live? now other = s.live? now other
    rw [live?_deleted, if_neg]
    rintro rfl
    exact hkey hother

theorem available_put (s : Store) (now : Nat) (key value : String) (ttl : Nat) :
    (s.put now key value ttl).2.available = s.available := by
  have hspares : Spares now (fun _ => False) s (s.put now key value ttl).2 := spares_put id
  exact hspares.available

theorem available_refresh (s : Store) (now : Nat) (key : String) (ttl : Nat) :
    (s.refresh now key ttl).2.available = s.available := by
  have hspares : Spares now (fun _ => False) s (s.refresh now key ttl).2 := spares_refresh id
  exact hspares.available

theorem available_delete (s : Store) (now : Nat) (key : String) :
    (s.delete now key).2.available = s.available := by
  have hspares : Spares now (fun _ => False) s (s.delete now key).2 := spares_delete id
  exact hspares.available

end Sparing

/-! What is written, and what is deleted. -/

theorem online_of_available {α : Type} {s : Store} (h : s.available = true) (f : α × Store) :
    s.online f = (.ok f.1, f.2) := if_pos h

theorem online_of_offline {α : Type} {s : Store} (h : s.available = false) (f : α × Store) :
    s.online f = (.error offline, s) := if_neg (Bool.eq_false_iff.1 h)

theorem find?_delete (s : Store) (now : Nat) (key other : String) :
    (s.delete now key).2.entries.find? other = s.entries.find? other ∨
      (s.delete now key).2.entries.find? other = none := by
  rw [delete_eq]
  by_cases h : s.available = true
  · rw [online_of_available h]
    exact find?_deleted s now key other
  · rw [online_of_offline (Bool.eq_false_iff.2 h)]
    exact .inl rfl

theorem live?_put (s : Store) (now : Nat) (key value : String) (ttl : Nat) (other : String) :
    (s.put now key value ttl).2.live? now other =
      if s.available = true ∧ other = key then seen now (some ⟨value, now + ttl⟩)
      else s.live? now other := by
  rw [put]
  by_cases h : s.available = true
  · rw [online_of_available h, live?_insert]
    simp only [h, true_and]
  · rw [online_of_offline (Bool.eq_false_iff.2 h), if_neg fun hboth => h hboth.1]

theorem live?_refresh (s : Store) (now : Nat) (key : String) (ttl : Nat) (other : String) :
    (s.refresh now key ttl).2.live? now other =
      if s.available = true ∧ other = key then
        seen now ((s.live? now other).map fun e => { e with deadline := now + ttl })
      else s.live? now other := by
  by_cases h : s.available = true ∧ other = key
  · obtain ⟨honline, rfl⟩ := h
    rw [if_pos ⟨honline, rfl⟩, refresh_eq, online_of_available honline]
    cases hlive : s.live? now other with
    | some e => exact (live?_insert s now other _ other).trans (if_pos rfl)
    | none => exact (live?_expire s now other other).trans hlive
  · have hspares : Spares now (· = other) s (s.refresh now key ttl).2 := by
      by_cases hother : other = key
      · rw [refresh_eq, online_of_offline (Bool.eq_false_iff.2 fun honline => h ⟨honline, hother⟩)]
        exact .refl s
      · exact spares_refresh (Ne.symm hother)
    rw [if_neg h, hspares.live other rfl]

theorem live?_delete (s : Store) (now : Nat) (key other : String) :
    (s.delete now key).2.live? now other =
      if s.available = true ∧ other = key then none else s.live? now other := by
  rw [delete_eq]
  by_cases h : s.available = true
  · rw [online_of_available h, live?_deleted]
    simp only [h, true_and]
  · rw [online_of_offline (Bool.eq_false_iff.2 h), if_neg fun hboth => h hboth.1]

end Store

theorem recordKey_inj {node other : String} : recordKey node = recordKey other ↔ node = other := by
  refine ⟨fun h => ?_, congrArg recordKey⟩
  unfold recordKey at h
  exact String.toList_inj.1 (List.append_cancel_left (by
    simpa only [String.toList_append] using congrArg String.toList h))

/-! ### Clients -/

namespace Client
open Store

/-- What a renewal makes of what can be seen of a record. -/
def renewed (now ttl : Nat) (i : Instance) : Option Entry → Entry
  | some e => { e with deadline := now + ttl }
  | none => ⟨recordOf i, now + ttl⟩

section
variable {now ttl : Nat} {kept : String → Prop} {s : Store} {c : Client}

theorem renewOne_of_offline (h : s.available = false) (node : String) (i : Instance) :
    renewOne s now ttl node i = (false, s) := by
  rw [renewOne, refresh_eq, online_of_offline h]

theorem renewOne_of_live (h : s.available = true) {node : String} {e : Entry}
    (he : s.live? now (recordKey node) = some e) (i : Instance) :
    renewOne s now ttl node i =
      (true, { s with entries := s.entries.insert (recordKey node) (renewed now ttl i (some e)) }) := by
  rw [renewOne, refresh_eq, he, online_of_available h]
  rfl

/-- A record that cannot be seen is written back. -/
theorem renewOne_of_gone (h : s.available = true) {node : String}
    (hgone : s.live? now (recordKey node) = none) (i : Instance) :
    renewOne s now ttl node i =
      (true, { (s.expire now (recordKey node)).2 with
        entries := (s.expire now (recordKey node)).2.entries.insert (recordKey node)
          (renewed now ttl i none) }) := by
  have hspares : Spares now (fun _ => True) s (s.expire now (recordKey node)).2 := spares_expire s _
  have havailable : (s.expire now (recordKey node)).2.available = true := hspares.available.trans h
  rw [renewOne, refresh_eq, hgone, online_of_available h]
  simp only [put, online_of_available havailable]
  rfl

theorem live?_renewOne (s : Store) (now ttl : Nat) (node : String) (i : Instance) (key : String) :
    (renewOne s now ttl node i).2.live? now key =
      if s.available = true ∧ key = recordKey node then
        seen now (some (renewed now ttl i (s.live? now (recordKey node))))
      else s.live? now key := by
  cases h : s.available with
  | false => rw [renewOne_of_offline h, if_neg (fun hboth => Bool.false_ne_true hboth.1)]
  | true =>
    simp only [true_and]
    cases hlive : s.live? now (recordKey node) with
    | some e => rw [renewOne_of_live h hlive, live?_insert]
    | none => rw [renewOne_of_gone h hlive, live?_insert, live?_expire]

theorem spares_renewOne {node : String} (hnode : ¬kept (recordKey node)) (i : Instance) :
    Spares now kept s (renewOne s now ttl node i).2 := by
  cases h : s.available with
  | false =>
    rw [renewOne_of_offline h]
    exact .refl s
  | true =>
    cases hlive : s.live? now (recordKey node) with
    | some e =>
      rw [renewOne_of_live h hlive]
      exact spares_insert hnode _
    | none =>
      rw [renewOne_of_gone h hlive]
      exact (spares_expire s _).trans (spares_insert hnode _)

theorem spares_renewAll {own : Dict Instance} (hown : ∀ p ∈ own, ¬kept (recordKey p.1)) :
    Spares now kept s (renewAll s now ttl own).2 := by
  induction own generalizing s with
  | nil => exact .refl s
  | cons p rest ih =>
    have hfirst : Spares now kept s (renewOne s now ttl p.1 p.2).2 :=
      spares_renewOne (hown p List.mem_cons_self) p.2
    exact hfirst.trans (ih fun p hp => hown p (List.mem_cons_of_mem _ hp))

theorem available_renewAll (s : Store) (now ttl : Nat) (own : Dict Instance) :
    (renewAll s now ttl own).2.available = s.available := by
  have hspares : Spares now (fun _ => False) s (renewAll s now ttl own).2 :=
    spares_renewAll fun _ _ => id
  exact hspares.available

/-- **A renewal of all records renews each of them, and writes back those that cannot be seen.** -/
theorem live?_renewAll {own : Dict Instance} (hown : own.Sorted) (s : Store) (now ttl : Nat)
    (node : String) :
    (renewAll s now ttl own).2.live? now (recordKey node) =
      match s.available, own.find? node with
      | true, some i => seen now (some (renewed now ttl i (s.live? now (recordKey node))))
      | _, _ => s.live? now (recordKey node) := by
  induction own generalizing s with
  | nil => cases s.available <;> rfl
  | cons p rest ih =>
    obtain ⟨first, i⟩ := p
    obtain ⟨hfirst, hrest⟩ := List.pairwise_cons.1 hown
    have hstep : (renewAll s now ttl ((first, i) :: rest)).2 =
        (renewAll (renewOne s now ttl first i).2 now ttl rest).2 := rfl
    have hspares : Spares now (fun _ => False) s (renewOne s now ttl first i).2 :=
      spares_renewOne id i
    rw [hstep, ih hrest, hspares.available, live?_renewOne, Dict.find?]
    simp only [recordKey_inj]
    by_cases hnode : node = first
    · subst hnode
      have hnone : Dict.find? node rest = none := by
        refine Option.eq_none_iff_forall_ne_some.2 fun j hj => ?_
        exact String.lt_irrefl _ (hfirst (node, j) (Dict.mem_of_find? hj))
      rw [hnone, if_pos rfl]
      cases s.available <;> simp
    · rw [if_neg hnode, if_neg (fun hboth => hnode hboth.2)]

/-! What is taken back. -/

/-- The store after all registrations were taken back as far as it let them. -/
def takenBack (s : Store) (now : Nat) (nodes : List String) : Store :=
  nodes.foldl (fun s node => (s.delete now (recordKey node)).2) s

theorem spares_takenBack {nodes : List String} (h : ∀ node ∈ nodes, ¬kept (recordKey node)) :
    Spares now kept s (takenBack s now nodes) := by
  induction nodes generalizing s with
  | nil => exact .refl s
  | cons node rest ih =>
    have hfirst : Spares now kept s (s.delete now (recordKey node)).2 :=
      spares_delete (h node List.mem_cons_self)
    exact hfirst.trans (ih fun node hnode => h node (List.mem_cons_of_mem _ hnode))

theorem find?_takenBack (s : Store) (now : Nat) (nodes : List String) (key : String) :
    (takenBack s now nodes).entries.find? key = s.entries.find? key ∨
      (takenBack s now nodes).entries.find? key = none := by
  induction nodes generalizing s with
  | nil => exact .inl rfl
  | cons node rest ih =>
    rcases ih (s.delete now (recordKey node)).2 with hsame | hnone
    · rcases find?_delete s now (recordKey node) key with h | h
      · exact .inl (hsame.trans h)
      · exact .inr (hsame.trans h)
    · exact .inr hnone

theorem live?_takenBack (s : Store) (now : Nat) (nodes : List String) (node : String) :
    (takenBack s now nodes).live? now (recordKey node) =
      if s.available = true ∧ node ∈ nodes then none else s.live? now (recordKey node) := by
  induction nodes generalizing s with
  | nil => simp [takenBack]
  | cons first rest ih =>
    have hstep : takenBack s now (first :: rest) =
        takenBack (s.delete now (recordKey first)).2 now rest := rfl
    rw [hstep, ih, available_delete, live?_delete]
    simp only [recordKey_inj]
    by_cases h : s.available = true ∧ node ∈ rest
    · rw [if_pos h, if_pos ⟨h.1, List.mem_cons_of_mem _ h.2⟩]
    · rw [if_neg h]
      simp only [List.mem_cons]
      by_cases hfirst : s.available = true ∧ node = first
      · rw [if_pos hfirst, if_pos ⟨hfirst.1, .inl hfirst.2⟩]
      · rw [if_neg hfirst, if_neg]
        rintro ⟨ha, hn | hn⟩
        · exact hfirst ⟨ha, hn⟩
        · exact h ⟨ha, hn⟩

/-! Operations. -/

theorem spares_register {i : Instance} (h : ¬kept (recordKey i.nodeKey)) :
    Spares now kept s (c.register s now i).2.1 := by
  unfold register
  split
  · exact .refl s
  · next config hconfig =>
    have hput : Spares now kept s
        (s.put now (recordKey i.nodeKey) (recordOf i) config.ttl.toNat).2 := spares_put h
    split <;> next hresult => rwa [hresult] at hput

theorem spares_unregister {i : Instance} (h : ¬kept (recordKey i.nodeKey)) :
    Spares now kept s (c.unregister s now i).2.1 :=
  spares_delete h

theorem spares_discover (service : String) : Spares now kept s (discover s now service).2 := by
  have hscan : Spares now kept s (s.scan now (serviceRoot service)).2 := spares_scan _
  unfold discover
  split <;> next h => rwa [h] at hscan

theorem spares_renew (h : ∀ p ∈ c.own, ¬kept (recordKey p.1)) :
    Spares now kept s (c.renew s now).2 := by
  unfold renew
  split
  · exact .refl s
  · exact spares_renewAll h

theorem spares_watch (node : String) (listener : Listener) :
    Spares now kept s (c.watch s now node listener).2.1 := by
  have hget : Spares now kept s (s.get now (recordKey node)).2 := spares_get _
  unfold watch
  split
  · exact .refl s
  · dsimp only
    split <;> next h => rwa [h] at hget

theorem spares_runDue (id : TaskId) {job : Job}
    (h : ∀ period next ttl, job = .heartbeat period next ttl → ∀ p ∈ c.own, ¬kept (recordKey p.1)) :
    Spares now kept s (c.runDue s now id job).1 := by
  cases job with
  | watch w => exact .refl s
  | sweeper period next =>
    unfold runDue
    dsimp only
    split
    · exact .refl s
    · split
      · exact .refl s
      · exact spares_sweep
  | heartbeat period next ttl =>
    unfold runDue
    dsimp only
    split
    · exact .refl s
    · split
      · exact .refl s
      · exact spares_renewAll (h _ _ _ rfl)

end
end Client

/-! ### Discoveries -/

/-- The live entries under a root, with their texts. -/
def Store.listing (s : Store) (now : Nat) (root : String) : List (String × String) :=
  (s.found now root).map fun (key, e) => (key, e.value)

/-- A discovery reads the live entries under the root of the service. -/
theorem Client.discover_fst (s : Store) (now : Nat) (service : String) :
    (discover s now service).1 =
      if s.available then
        (s.listing now (serviceRoot service)).mapM fun (key, text) => readRecord key text
      else .error Store.offline := by
  unfold discover
  rw [Store.scan_eq]
  cases h : s.available with
  | false =>
    rw [Store.online_of_offline h]
    rfl
  | true =>
    rw [Store.online_of_available h]
    rfl

theorem Store.listing_eq {s t : Store} {now later : Nat} {root : String} (hs : s.entries.Sorted)
    (ht : t.entries.Sorted)
    (hlive : ∀ key, under root key = true → s.live? now key = t.live? later key) :
    s.listing now root = t.listing later root := by
  refine Dict.Sorted.ext (sorted_values_found hs now root) (sorted_values_found ht later root)
    fun key value => ?_
  refine (mem_values_found hs).trans (Iff.trans ?_ (mem_values_found ht).symm)
  refine and_congr_right fun hunder => ?_
  rw [hlive key hunder]

/-- Every key under the root of a service is the key of a node. -/
theorem exists_node {service key : String}
    (h : Store.under (Client.serviceRoot service) key = true) : ∃ node, key = recordKey node := by
  rw [Store.under, List.isPrefixOf_iff_prefix, Client.serviceRoot, recordKey,
    String.toList_append] at h
  obtain ⟨rest, hrest⟩ := h
  refine ⟨String.ofList ((service ++ "/").toList ++ rest), String.toList_inj.1 ?_⟩
  rw [recordKey, String.toList_append, String.toList_ofList, ← List.append_assoc]
  exact hrest.symm

end RemoteCall.Registry
