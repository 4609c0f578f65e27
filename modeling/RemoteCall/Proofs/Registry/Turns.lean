import RemoteCall.Proofs.Json.RoundTrip
import RemoteCall.Registry.Traffic

/-! What can happen to the store.

Whatever a client or anybody else does, the store changes by a few kinds of changes only,
one after the other: an entry is dropped and its end announced, a record is written under
its key, something is written that is no record, an entry is renewed, or the store goes
offline or comes back (`Store.Turn`). Every operation is such a turn, and what holds of
the store at all times follows from the changes alone: what lies under the root of the
records is a record (`Turn.genuine`), and once no lease ends at or before some moment,
none does later (`Turn.outlives`). Changes of whatever kind, at whatever times, let no
entry vanish without an announcement (`Becomes.announces`). -/
namespace RemoteCall.Registry

/-! ### Turns -/

namespace Store

/-- What is announced of an entry that is dropped at a time. -/
def ending (now : Nat) (key : String) (e : Entry) : Event :=
  if e.live now then .deleted key else .expired key

/-- The changes of a store at one time, where leases are given for `term` if at all. -/
inductive Turn (now : Nat) (term : Option Nat) : Store → Store → Prop where
  | refl (s : Store) : Turn now term s s
  | drop {s t : Store} (h : Turn now term s t) {key : String} {e : Entry}
      (he : t.entries.find? key = some e) : Turn now term s (t.drop (ending now key e))
  | record {s t : Store} (h : Turn now term s t) (i : Instance) {ttl : Nat}
      (hterm : term = some ttl) :
      Turn now term s { t with
        entries := t.entries.insert (recordKey i.nodeKey) ⟨Client.recordOf i, now + ttl⟩ }
  | other {s t : Store} (h : Turn now term s t) {key : String} (hkey : under recordRoot key = false)
      (value : String) {ttl : Nat} (hterm : term = some ttl) :
      Turn now term s { t with entries := t.entries.insert key ⟨value, now + ttl⟩ }
  | renew {s t : Store} (h : Turn now term s t) {key : String} {e : Entry}
      (he : t.entries.find? key = some e) {ttl : Nat} (hterm : term = some ttl) :
      Turn now term s { t with entries := t.entries.insert key { e with deadline := now + ttl } }
  | switch {s t : Store} (h : Turn now term s t) (available : Bool) :
      Turn now term s (t.setAvailable available)

section Operations
variable {now : Nat} {term : Option Nat} {s t u : Store}

theorem Turn.trans (h : Turn now term s t) (h' : Turn now term t u) : Turn now term s u := by
  induction h' with
  | refl => exact h
  | drop _ he ih => exact .drop ih he
  | record _ i hterm ih => exact .record ih i hterm
  | other _ hkey value hterm ih => exact .other ih hkey value hterm
  | renew _ he hterm ih => exact .renew ih he hterm
  | switch _ available ih => exact .switch ih available

theorem turn_online {α : Type} {f : α × Store} (h : Turn now term s f.2) :
    Turn now term s (s.online f).2 := by
  unfold online
  split
  · exact h
  · exact .refl s

theorem turn_expire (key : String) : Turn now term s (s.expire now key).2 := by
  unfold expire
  split
  · next e he =>
    split
    · exact .refl s
    · next hdead =>
      have hdrop : Turn now term s (s.drop (ending now key e)) := .drop (.refl s) he
      rwa [ending, if_neg hdead] at hdrop
  · exact .refl s

theorem turn_expireAll (keys : List String) : Turn now term s (s.expireAll now keys).2 := by
  induction keys generalizing s with
  | nil => exact .refl s
  | cons key rest ih => exact (turn_expire key).trans ih

theorem turn_get (key : String) : Turn now term s (s.get now key).2 := by
  refine turn_online ?_
  split
  · split
    · exact .refl s
    · exact turn_expire key
  · exact .refl s

theorem turn_refresh (key : String) {ttl : Nat} (hterm : term = some ttl) :
    Turn now term s (s.refresh now key ttl).2 := by
  refine turn_online ?_
  split
  · next e he =>
    split
    · exact .renew (.refl s) he hterm
    · exact turn_expire key
  · exact .refl s

theorem turn_delete (key : String) : Turn now term s (s.delete now key).2 := by
  refine turn_online ?_
  split
  · next e he =>
    have hdrop : Turn now term s (s.drop (ending now key e)) := .drop (.refl s) he
    unfold ending at hdrop
    split
    · next hlive => rwa [if_pos hlive] at hdrop
    · next hdead => rwa [if_neg hdead] at hdrop
  · exact .refl s

theorem turn_scan (root : String) : Turn now term s (s.scan now root).2 :=
  turn_online (turn_expireAll _)

theorem turn_sweep : Turn now term s (s.sweep now).2 := turn_expireAll _

theorem turn_putRecord (i : Instance) {ttl : Nat} (hterm : term = some ttl) :
    Turn now term s (s.put now (recordKey i.nodeKey) (Client.recordOf i) ttl).2 :=
  turn_online (.record (.refl s) i hterm)

theorem turn_putOther {key : String} (hkey : under recordRoot key = false) (value : String)
    {ttl : Nat} (hterm : term = some ttl) : Turn now term s (s.put now key value ttl).2 :=
  turn_online (.other (.refl s) hkey value hterm)

end Operations
end Store

/-! ### What clients do is a turn -/

namespace Client
open Store

/-- For how long a client lets its records live. -/
def term? (c : Client) : Option Nat := c.config.map fun config => config.ttl.toNat

/-- Every instance that the client registered is kept under its own node key. -/
def Keyed (c : Client) : Prop := ∀ p ∈ c.own, p.1 = p.2.nodeKey

section Operations
variable {now : Nat} {term : Option Nat} {s : Store} {c : Client}

theorem turn_register (i : Instance) : Turn now c.term? s (c.register s now i).2.1 := by
  unfold register
  split
  · exact .refl s
  · next config hconfig =>
    have hterm : c.term? = some config.ttl.toNat := by rw [term?, hconfig]; rfl
    have hput : Turn now c.term? s
        (s.put now (recordKey i.nodeKey) (recordOf i) config.ttl.toNat).2 :=
      turn_putRecord i hterm
    split <;> next h => rwa [h] at hput

theorem turn_unregister (i : Instance) : Turn now term s (c.unregister s now i).2.1 :=
  turn_delete _

theorem turn_discover (service : String) : Turn now term s (discover s now service).2 := by
  have hscan : Turn now term s (s.scan now (serviceRoot service)).2 := turn_scan _
  unfold discover
  split <;> next h => rwa [h] at hscan

theorem turn_watch (node : String) (listener : Listener) :
    Turn now term s (c.watch s now node listener).2.1 := by
  have hget : Turn now term s (s.get now (recordKey node)).2 := turn_get _
  unfold watch
  split
  · exact .refl s
  · dsimp only
    split <;> next h => rwa [h] at hget

theorem turn_destroy : Turn now term s (c.destroy s now).1 := by
  have hfold (keys : List String) (t : Store) :
      Turn now term t (keys.foldl (fun s node => (s.delete now (recordKey node)).2) t) := by
    induction keys generalizing t with
    | nil => exact .refl t
    | cons key rest ih => exact (turn_delete _).trans (ih _)
  exact hfold _ s

end Operations
end Client

/-! ### What follows -/

namespace Store

/-- Whether there is an entry under a key, live or not. -/
def Holds (s : Store) (key : String) : Prop := ∃ e, s.entries.find? key = some e

/-- One store became the other, and each key that vanished on the way was announced. -/
structure Announces (s t : Store) (news : List Event) : Prop where
  events : t.events = s.events ++ news
  kept : ∀ key, s.Holds key → t.Holds key ∨ ∃ e ∈ news, e.key = key

/-- One store became the other by changes of whatever kind. What is dropped was there. -/
inductive Becomes (s : Store) : Store → Prop where
  | refl : Becomes s s
  | drop {t : Store} (h : Becomes s t) {event : Event} (hheld : t.Holds event.key) :
      Becomes s (t.drop event)
  | write {t : Store} (h : Becomes s t) (key : String) (e : Entry) :
      Becomes s { t with entries := t.entries.insert key e }
  | switch {t : Store} (h : Becomes s t) (available : Bool) :
      Becomes s (t.setAvailable available)

/-- Whether all that lies under the root of the records is a record in its place. -/
def Genuine (s : Store) : Prop :=
  ∀ p ∈ s.entries, under recordRoot p.1 = true →
    ∃ i : Instance, p.1 = recordKey i.nodeKey ∧ p.2.value = Client.recordOf i

/-- Whether no lease ends at a moment or before it. -/
def Outlives (s : Store) (moment : Nat) : Prop :=
  ∀ key e, s.entries.find? key = some e → moment < e.deadline

section Consequences
variable {now : Nat} {term : Option Nat} {s t u : Store}

theorem key_ending (key : String) (e : Entry) : (ending now key e).key = key := by
  unfold ending
  split <;> rfl

theorem holds_insert {key : String} (h : s.Holds key) (other : String) (e : Entry) :
    Holds { s with entries := s.entries.insert other e } key := by
  by_cases hkey : key = other
  · exact ⟨e, by rw [hkey]; exact Dict.find?_insert_self other e s.entries⟩
  · obtain ⟨e', he'⟩ := h
    exact ⟨e', (Dict.find?_insert_of_ne hkey e s.entries).trans he'⟩

theorem Becomes.trans (h : Becomes s t) (h' : Becomes t u) : Becomes s u := by
  induction h' with
  | refl => exact h
  | drop _ hheld ih => exact .drop ih hheld
  | write _ key e ih => exact .write ih key e
  | switch _ available ih => exact .switch ih available

theorem Turn.becomes (h : Turn now term s t) : Becomes s t := by
  induction h with
  | refl => exact .refl
  | @drop t _ key e he ih => exact .drop ih ⟨e, by rw [key_ending]; exact he⟩
  | record _ i _ ih => exact .write ih _ _
  | other _ _ _ _ ih => exact .write ih _ _
  | renew _ _ _ ih => exact .write ih _ _
  | switch _ available ih => exact .switch ih available

/-- **No entry vanishes without an announcement**, whatever is done to the store. -/
theorem Becomes.announces (h : Becomes s t) : ∃ news, s.Announces t news := by
  induction h with
  | refl => exact ⟨[], (List.append_nil _).symm, fun _ => .inl⟩
  | @drop t _ event _ ih =>
    obtain ⟨news, hevents, hkept⟩ := ih
    refine ⟨news ++ [event], ?_, fun key hkey => ?_⟩
    · show t.events ++ [event] = _
      rw [hevents, List.append_assoc]
    · rcases hkept key hkey with ⟨e, he⟩ | ⟨other, hother, heq⟩
      · by_cases hdropped : key = event.key
        · exact .inr ⟨event, List.mem_append_right _ List.mem_cons_self, hdropped.symm⟩
        · exact .inl ⟨e, (Dict.find?_erase_of_ne hdropped _).trans he⟩
      · exact .inr ⟨other, List.mem_append_left _ hother, heq⟩
  | write _ key e ih =>
    obtain ⟨news, hevents, hkept⟩ := ih
    exact ⟨news, hevents, fun other hother =>
      (hkept other hother).imp_left fun hholds => holds_insert hholds key e⟩
  | switch _ _ ih =>
    obtain ⟨news, hevents, hkept⟩ := ih
    exact ⟨news, hevents, hkept⟩

theorem Turn.announces (h : Turn now term s t) : ∃ news, s.Announces t news := h.becomes.announces

theorem Turn.genuine (h : Turn now term s t) (hs : s.Genuine) : t.Genuine := by
  induction h with
  | refl => exact hs
  | drop _ _ ih => exact fun p hp => ih p (List.mem_filter.1 hp).1
  | record _ i _ ih =>
    intro p hp hunder
    rcases Dict.mem_of_mem_insert hp with rfl | hp
    · exact ⟨i, rfl, rfl⟩
    · exact ih p hp hunder
  | other _ hkey _ _ ih =>
    intro p hp hunder
    rcases Dict.mem_of_mem_insert hp with rfl | hp
    · rw [hkey] at hunder
      cases hunder
    · exact ih p hp hunder
  | renew _ he _ ih =>
    intro p hp hunder
    rcases Dict.mem_of_mem_insert hp with rfl | hp
    · obtain ⟨i, hkey, hvalue⟩ := ih _ (Dict.mem_of_find? he) hunder
      exact ⟨i, hkey, hvalue⟩
    · exact ih p hp hunder
  | switch _ _ ih => exact ih

end Consequences

/-! ### Sweeping -/

section Sweeping
variable {now : Nat} {s : Store}

theorem find?_expire {key other : String} {e : Entry}
    (h : (s.expire now key).2.entries.find? other = some e) :
    s.entries.find? other = some e ∧ (other = key → e.live now = true) := by
  unfold expire at h
  split at h
  · next e' he' =>
    split at h
    · next hlive =>
      refine ⟨h, ?_⟩
      rintro rfl
      obtain rfl := Option.some.inj (he'.symm.trans h)
      exact hlive
    · by_cases hkey : other = key
      · rw [hkey] at h
        cases (Dict.find?_erase_self key s.entries).symm.trans h
      · exact ⟨(Dict.find?_erase_of_ne hkey s.entries).symm.trans h, fun h => absurd h hkey⟩
  · next hnone =>
    refine ⟨h, ?_⟩
    rintro rfl
    cases hnone.symm.trans h

theorem find?_expireAll {keys : List String} {other : String} {e : Entry}
    (h : (s.expireAll now keys).2.entries.find? other = some e) :
    s.entries.find? other = some e ∧ (other ∈ keys → e.live now = true) := by
  induction keys generalizing s with
  | nil => exact ⟨h, fun hmem => by cases hmem⟩
  | cons key rest ih =>
    obtain ⟨hmiddle, hrest⟩ := ih h
    obtain ⟨hfirst, hkey⟩ := find?_expire hmiddle
    refine ⟨hfirst, fun hmem => ?_⟩
    rcases List.mem_cons.1 hmem with rfl | hmem
    · exact hkey rfl
    · exact hrest hmem

/-- **After a sweep every lease ends later.** -/
theorem outlives_sweep (now : Nat) (s : Store) : (s.sweep now).2.Outlives now := by
  intro key e he
  obtain ⟨hfind, hlive⟩ := find?_expireAll he
  by_cases h : e.live now = true
  · simpa [Entry.live] using h
  · refine absurd (hlive (List.mem_map.2 ⟨(key, e), ?_, rfl⟩)) h
    exact List.mem_filter.2 ⟨Dict.mem_of_find? hfind, by simpa using h⟩

end Sweeping
end Store
end RemoteCall.Registry
