import RemoteCall.Proofs.Registry.Visible

/-! What becomes of one key.

A watch goes by one key: by the entry that is there, and by what was announced of it since the
watch began to listen. Two stores may be alike in this and differ in everything else
(`Store.Alike`). What is done to both of them leaves them alike, for what an operation does to a
key depends on the entry under this key only; and what is done to one of them alone leaves them
alike if it comes across other keys. -/
namespace RemoteCall.Registry

namespace Store

/-- What was announced of a key after the first `n` announcements. -/
def unheard (s : Store) (key : String) (n : Nat) : List Event :=
  (s.events.drop n).filter fun e => e.key = key

/-- Two stores that are online or not together, hold the same under a key, and have announced
the same of it, each after a number of announcements of its own. -/
structure Alike (key : String) (m n : Nat) (s t : Store) : Prop where
  available : s.available = t.available
  entry : s.entries.find? key = t.entries.find? key
  left : m ≤ s.events.length
  right : n ≤ t.events.length
  unheard : s.unheard key m = t.unheard key n

section Changes
variable {now m n l ttl : Nat} {key other value : String} {s t u : Store} {event : Event}
  {keys keys' : List String}

theorem unheard_drop (h : n ≤ s.events.length) (event : Event) (key : String) :
    (s.drop event).unheard key n =
      s.unheard key n ++ if event.key = key then [event] else [] := by
  unfold unheard drop
  rw [List.drop_append_of_le_length h, List.filter_append]
  congr 1
  by_cases hkey : event.key = key <;> simp [hkey]

namespace Alike

theorem symm (h : Alike key m n s t) : Alike key n m t s :=
  ⟨h.available.symm, h.entry.symm, h.right, h.left, h.unheard.symm⟩

theorem trans (h : Alike key m n s t) (h' : Alike key n l t u) : Alike key m l s u :=
  ⟨h.available.trans h'.available, h.entry.trans h'.entry, h.left, h'.right,
    h.unheard.trans h'.unheard⟩

theorem live (h : Alike key m n s t) (now : Nat) : s.live? now key = t.live? now key :=
  congrArg (seen now) h.entry

/-! ### Entries -/

theorem insert (h : Alike key m n s t) (other : String) (e : Entry) :
    Alike key m n { s with entries := s.entries.insert other e }
      { t with entries := t.entries.insert other e } where
  available := h.available
  entry := by
    rw [Dict.find?_insert, Dict.find?_insert, h.entry]
  left := h.left
  right := h.right
  unheard := h.unheard

theorem insert_left (h : Alike key m n s t) (hother : key ≠ other) (e : Entry) :
    Alike key m n { s with entries := s.entries.insert other e } t where
  available := h.available
  entry := (Dict.find?_insert_of_ne hother e s.entries).trans h.entry
  left := h.left
  right := h.right
  unheard := h.unheard

theorem drop (h : Alike key m n s t) (event : Event) :
    Alike key m n (s.drop event) (t.drop event) where
  available := h.available
  entry := by
    rw [Store.drop, Store.drop, Dict.find?_erase, Dict.find?_erase, h.entry]
  left := by
    rw [Store.drop, List.length_append]
    exact Nat.le_add_right_of_le h.left
  right := by
    rw [Store.drop, List.length_append]
    exact Nat.le_add_right_of_le h.right
  unheard := by rw [unheard_drop h.left, unheard_drop h.right, h.unheard]

theorem drop_left (h : Alike key m n s t) (hevent : key ≠ event.key) :
    Alike key m n (s.drop event) t where
  available := h.available
  entry := (Dict.find?_erase_of_ne hevent s.entries).trans h.entry
  left := by
    rw [Store.drop, List.length_append]
    exact Nat.le_add_right_of_le h.left
  right := h.right
  unheard := by rw [unheard_drop h.left, if_neg hevent.symm, List.append_nil, h.unheard]

/-! ### What is dropped -/

theorem expire_left (h : Alike key m n s t) (hother : key ≠ other) :
    Alike key m n (s.expire now other).2 t := by
  unfold expire
  split
  · split
    · exact h
    · exact h.drop_left hother
  · exact h

theorem expire (h : Alike key m n s t) (other : String) :
    Alike key m n (s.expire now other).2 (t.expire now other).2 := by
  by_cases hother : key = other
  · subst hother
    unfold Store.expire
    rw [h.entry]
    split
    · split
      · exact h
      · exact h.drop _
    · exact h
  · exact (h.expire_left hother).symm.expire_left hother |>.symm

theorem expireAll_left (h : Alike key m n s t) (hkeys : key ∉ keys) :
    Alike key m n (s.expireAll now keys).2 t := by
  induction keys generalizing s with
  | nil => exact h
  | cons other rest ih =>
    obtain ⟨hother, hrest⟩ := not_or.1 fun hmem => hkeys (List.mem_cons.2 hmem)
    exact ih (h.expire_left hother) hrest

end Alike

theorem find?_of_live? {e : Entry} (h : s.live? now key = some e) :
    s.entries.find? key = some e ∧ e.live now = true :=
  Option.filter_eq_some_iff.1 h

theorem expire_of_live {e : Entry} (h : s.live? now key = some e) : (s.expire now key).2 = s := by
  obtain ⟨hentry, hlive⟩ := find?_of_live? h
  rw [expire, hentry]
  exact congrArg Prod.snd (if_pos hlive)

theorem expire_expire (s : Store) (now : Nat) (key : String) :
    ((s.expire now key).2.expire now key).2 = (s.expire now key).2 := by
  cases hentry : s.entries.find? key with
  | none => simp [expire, hentry]
  | some e =>
    cases hlive : e.live now with
    | true => simp [expire, hentry, hlive]
    | false =>
      have hgone : (s.drop (.expired key)).entries.find? key = none :=
        Dict.find?_erase_self key s.entries
      simp [expire, hentry, hlive, hgone]

namespace Alike

/-- To a key that is one of many it makes no difference that the others are dropped. -/
theorem expireAll_expire (h : Alike key m n s t) (hkey : key ∈ keys) :
    Alike key m n (s.expireAll now keys).2 (t.expire now key).2 := by
  induction keys generalizing s t with
  | nil => cases hkey
  | cons first rest ih =>
    by_cases hfirst : key = first
    · subst hfirst
      have hdropped : Alike key m n (s.expire now key).2 (t.expire now key).2 := h.expire key
      by_cases hrest : key ∈ rest
      · have hagain := ih hdropped hrest
        rwa [expire_expire] at hagain
      · exact hdropped.expireAll_left hrest
    · exact ih (h.expire_left hfirst) ((List.mem_cons.1 hkey).resolve_left hfirst)

theorem expireAll (h : Alike key m n s t) (hkeys : key ∈ keys ↔ key ∈ keys') :
    Alike key m n (s.expireAll now keys).2 (t.expireAll now keys').2 := by
  by_cases hkey : key ∈ keys
  · have hs : Alike key m n (s.expireAll now keys).2 (t.expire now key).2 :=
      h.expireAll_expire hkey
    have ht : Alike key n m (t.expireAll now keys').2 (s.expire now key).2 :=
      h.symm.expireAll_expire (hkeys.1 hkey)
    exact (hs.trans (h.expire key).symm).trans ht.symm
  · exact ((h.expireAll_left hkey).symm.expireAll_left fun hkey' => hkey (hkeys.2 hkey')).symm

/-- Whatever is chosen by its key and its entry is dropped in both stores. -/
theorem expireAll_filter (h : Alike key m n s t) (hs : s.entries.Sorted) (ht : t.entries.Sorted)
    (choose : String × Entry → Bool) :
    Alike key m n (s.expireAll now ((s.entries.filter choose).map Prod.fst)).2
      (t.expireAll now ((t.entries.filter choose).map Prod.fst)).2 := by
  refine h.expireAll ?_
  have hmem {d : Dict Entry} (hd : d.Sorted) :
      key ∈ (d.filter choose).map Prod.fst ↔
        ∃ e, d.find? key = some e ∧ choose (key, e) = true := by
    simp only [List.mem_map, List.mem_filter, Prod.exists, hd.mem_iff]
    constructor
    · rintro ⟨other, e, hchosen, rfl⟩
      exact ⟨e, hchosen⟩
    · rintro ⟨e, hchosen⟩
      exact ⟨key, e, hchosen, rfl⟩
  rw [hmem hs, hmem ht, h.entry]

end Alike

/-! ### Operations -/

namespace Alike

theorem online {α : Type} {f g : α × Store} (h : Alike key m n s t)
    (hdone : Alike key m n f.2 g.2) : Alike key m n (s.online f).2 (t.online g).2 := by
  unfold Store.online
  rw [h.available]
  split
  · exact hdone
  · exact h

theorem online_left {α : Type} {f : α × Store} (h : Alike key m n s t)
    (hdone : Alike key m n f.2 t) : Alike key m n (s.online f).2 t := by
  unfold Store.online
  split
  · exact hdone
  · exact h

theorem put (h : Alike key m n s t) (other value : String) (ttl : Nat) :
    Alike key m n (s.put now other value ttl).2 (t.put now other value ttl).2 :=
  h.online (f := ((), _)) (g := ((), _)) (h.insert other _)

theorem get (h : Alike key m n s t) (other : String) :
    Alike key m n (s.get now other).2 (t.get now other).2 := by
  rw [get_eq, get_eq]
  exact h.online (h.expire other)

theorem refresh_left (h : Alike key m n s t) (hother : key ≠ other) :
    Alike key m n (s.refresh now other ttl).2 t := by
  rw [refresh_eq]
  refine h.online_left ?_
  split
  · exact h.insert_left hother _
  · exact h.expire_left hother

theorem refresh (h : Alike key m n s t) (other : String) (ttl : Nat) :
    Alike key m n (s.refresh now other ttl).2 (t.refresh now other ttl).2 := by
  by_cases hother : key = other
  · subst hother
    rw [refresh_eq, refresh_eq, h.live now]
    refine h.online ?_
    split
    · next e he =>
      exact h.insert key _
    · exact h.expire key
  · exact (h.refresh_left hother).symm.refresh_left hother |>.symm

theorem deleted_left (h : Alike key m n s t) (hother : key ≠ other) :
    Alike key m n (s.deleted now other) t := by
  unfold deleted
  split
  · split
    · exact h.drop_left hother
    · exact h.drop_left hother
  · exact h

theorem delete (h : Alike key m n s t) (other : String) :
    Alike key m n (s.delete now other).2 (t.delete now other).2 := by
  rw [delete_eq, delete_eq]
  refine h.online ?_
  by_cases hother : key = other
  · subst hother
    show Alike key m n (s.deleted now key) (t.deleted now key)
    unfold deleted
    rw [h.entry]
    split
    · split
      · exact h.drop _
      · exact h.drop _
    · exact h
  · exact (h.deleted_left hother).symm.deleted_left hother |>.symm

theorem scan (h : Alike key m n s t) (hs : s.entries.Sorted) (ht : t.entries.Sorted)
    (root : String) : Alike key m n (s.scan now root).2 (t.scan now root).2 := by
  rw [scan_eq, scan_eq]
  exact h.online (h.expireAll_filter hs ht _)

theorem sweep (h : Alike key m n s t) (hs : s.entries.Sorted) (ht : t.entries.Sorted) :
    Alike key m n (s.sweep now).2 (t.sweep now).2 :=
  h.expireAll_filter hs ht _

/-- **What is done to both stores leaves them alike.** -/
theorem apply (h : Alike key m n s t) (hs : s.entries.Sorted) (ht : t.entries.Sorted) (op : Op) :
    Alike key m n (s.apply now op).2 (t.apply now op).2 := by
  cases op with
  | put other value ttl => exact h.put other value ttl
  | get other => exact h.get other
  | refresh other ttl => exact h.refresh other ttl
  | delete other => exact h.delete other
  | scan root => exact h.scan hs ht root
  | sweep => exact h.sweep hs ht
  | setAvailable available => exact ⟨rfl, h.entry, h.left, h.right, h.unheard⟩

end Alike
end Changes
end Store

/-! ### What clients do -/

namespace Client
open Store
variable {now m n ttl : Nat} {key node : String} {s t : Store}

theorem discover_snd (s : Store) (now : Nat) (service : String) :
    (discover s now service).2 = (s.scan now (serviceRoot service)).2 := by
  unfold discover
  split <;> next h => rw [h]

theorem alike_discover (h : Alike key m n s t) (hs : s.entries.Sorted) (ht : t.entries.Sorted)
    (service : String) :
    Alike key m n (discover s now service).2 (discover t now service).2 := by
  rw [discover_snd, discover_snd]
  exact h.scan hs ht _

theorem alike_renewOne_left (h : Alike key m n s t) (hnode : key ≠ recordKey node) (i : Instance) :
    Alike key m n (renewOne s now ttl node i).2 t := by
  cases havailable : s.available with
  | false =>
    rw [renewOne_of_offline havailable]
    exact h
  | true =>
    cases hlive : s.live? now (recordKey node) with
    | some e =>
      rw [renewOne_of_live havailable hlive]
      exact h.insert_left hnode _
    | none =>
      rw [renewOne_of_gone havailable hlive]
      exact (h.expire_left hnode).insert_left hnode _

theorem alike_renewOne (h : Alike key m n s t) (node : String) (i : Instance) :
    Alike key m n (renewOne s now ttl node i).2 (renewOne t now ttl node i).2 := by
  by_cases hnode : key = recordKey node
  · subst hnode
    have havailable := h.available
    have hlive := h.live now
    cases hs : s.available with
    | false =>
      rw [renewOne_of_offline hs, renewOne_of_offline (havailable ▸ hs)]
      exact h
    | true =>
      cases he : s.live? now (recordKey node) with
      | some e =>
        rw [renewOne_of_live hs he, renewOne_of_live (havailable ▸ hs) (hlive ▸ he)]
        exact h.insert _ _
      | none =>
        rw [renewOne_of_gone hs he, renewOne_of_gone (havailable ▸ hs) (hlive ▸ he)]
        exact (h.expire _).insert _ _
  · exact (alike_renewOne_left (alike_renewOne_left h hnode i).symm hnode i).symm

theorem alike_renewAll (h : Alike key m n s t) (own : Dict Instance) :
    Alike key m n (renewAll s now ttl own).2 (renewAll t now ttl own).2 := by
  induction own generalizing s t with
  | nil => exact h
  | cons p rest ih => exact ih (alike_renewOne h p.1 p.2)

theorem alike_takenBack (h : Alike key m n s t) (nodes : List String) :
    Alike key m n (takenBack s now nodes) (takenBack t now nodes) := by
  induction nodes generalizing s t with
  | nil => exact h
  | cons node rest ih => exact ih (h.delete _)

end Client
end RemoteCall.Registry
