import Mathlib.Data.List.Nodup
import RemoteCall.Proofs.Registry.Visible

/-! What the store announces.

An operation drops entries and announces them one by one (`Sheds`), or it writes one entry and
announces nothing. So it announces exactly what was there before it and is not there after it, once
each, as deleted or expired by what the entry was at the time (`Discloses`). Added up over any
operations, the announcements of a key, and the entry under it if there is one, are as many as the
puts that found none (`removals_announced`). -/
namespace RemoteCall.Registry.Store

variable {now : Nat} {s t : Store} {key : String} {e : Entry} {op : Op} {news : List Event}

/-! ### Statements -/

/-- Whether an operation puts an entry under a key that has none. -/
def fills (s : Store) (key : String) : Op → Bool
  | .put other _ _ => s.available && decide (other = key) && !s.entries.contains key
  | _ => false

/-- How many of some operations put an entry under a key that had none. -/
def filled (key : String) (s : Store) : List (Nat × Op) → Nat
  | [] => 0
  | (now, op) :: rest => (s.fills key op).toNat + filled key (s.apply now op).2 rest

/-- Whether the announcements of an operation at a time are those of the entries that it removes, one
for each. Live entries are removed by a deletion only and announced as deleted, and all others as
expired. Where there was no entry, there is one only by a put. -/
structure Discloses (now : Nat) (op : Op) (s t : Store) (news : List Event) : Prop where
  events : t.events = s.events ++ news
  once : (news.map Event.key).Nodup
  removed : ∀ key, key ∈ news.map Event.key ↔ s.Holds key ∧ ¬t.Holds key
  deleted : ∀ key, .deleted key ∈ news ↔
    op = .delete key ∧ ¬t.Holds key ∧ ∃ e, s.entries.find? key = some e ∧ now < e.deadline
  expired : ∀ key, .expired key ∈ news ↔
    ¬t.Holds key ∧ ∃ e, s.entries.find? key = some e ∧ e.deadline ≤ now
  added : ∀ key, s.fills key op = true ↔ ¬s.Holds key ∧ t.Holds key

/-- Whether an answer fits the announcements: a deletion says whether it has made its own, and a sweep
how many it has made. After a sweep every lease ends later. -/
def Op.Reports (now : Nat) (t : Store) (news : List Event) (answer : Except RegistryError Reply) :
    Op → Prop
  | .delete key => answer = .ok (.flag true) ↔ .deleted key ∈ news
  | .sweep => answer = .ok (.count news.length) ∧ t.Outlives now
  | .put _ _ _ | .get _ | .refresh _ _ | .scan _ | .setAvailable _ => True

/-! ### Entries -/

theorem holds_iff : s.Holds key ↔ s.entries.contains key = true := by
  rw [Dict.contains, Option.isSome_iff_exists, Holds]

theorem not_holds_iff : ¬s.Holds key ↔ s.entries.find? key = none := by
  rw [holds_iff, Dict.contains, Option.not_isSome_iff_eq_none]

theorem ending_of_live (h : now < e.deadline) : ending now key e = .deleted key :=
  if_pos (decide_eq_true h)

theorem ending_of_dead (h : e.deadline ≤ now) : ending now key e = .expired key :=
  if_neg (by simpa [Entry.live] using h)

/-! ### Dropping -/

/-- Entries were dropped at a time, and these are the announcements of them. -/
structure Sheds (now : Nat) (s t : Store) (news : List Event) : Prop where
  events : t.events = s.events ++ news
  once : (news.map Event.key).Nodup
  entry : ∀ key, t.entries.find? key =
    if key ∈ news.map Event.key then none else s.entries.find? key
  told : ∀ event ∈ news, ∃ e, s.entries.find? event.key = some e ∧ event = ending now event.key e

theorem Sheds.nothing (hentries : t.entries = s.entries) (hevents : t.events = s.events) :
    Sheds now s t [] where
  events := by rw [hevents, List.append_nil]
  once := List.nodup_nil
  entry key := by simp [hentries]
  told := nofun

/-- One more entry is dropped. -/
theorem Sheds.drop (h : Sheds now s t news) (he : t.entries.find? key = some e) :
    Sheds now s (t.drop (ending now key e)) (news ++ [ending now key e]) := by
  have hkey : (ending now key e).key = key := key_ending key e
  -- What was dropped before is not found any more.
  have hnew : key ∉ news.map Event.key := by
    intro hmem
    rw [h.entry, if_pos hmem] at he
    cases he
  have hold : s.entries.find? key = some e := by rwa [h.entry, if_neg hnew] at he
  refine ⟨?_, ?_, fun other => ?_, fun event hevent => ?_⟩
  · rw [Store.drop, h.events, List.append_assoc]
  · rw [List.map_append, List.map_singleton, hkey, ← List.concat_eq_append]
    exact h.once.concat hnew
  · rw [Store.drop, Dict.find?_erase, hkey, h.entry]
    by_cases hother : other = key
    · simp [hother, hkey]
    · simp [hother, hkey]
  · rcases List.mem_append.1 hevent with hbefore | hlast
    · exact h.told event hbefore
    · obtain rfl := List.mem_singleton.1 hlast
      rw [hkey]
      exact ⟨e, hold, rfl⟩

/-- Changes at a time that write nothing drop entries and announce them. -/
theorem Turn.sheds (h : Turn now none s t) : ∃ news, Sheds now s t news := by
  induction h with
  | refl => exact ⟨[], .nothing rfl rfl⟩
  | drop _ he ih =>
    obtain ⟨news, hnews⟩ := ih
    exact ⟨_, hnews.drop he⟩
  | record _ _ hterm => cases hterm
  | other _ _ _ hterm => cases hterm
  | renew _ _ hterm => cases hterm
  | switch _ available ih =>
    obtain ⟨news, hnews⟩ := ih
    exact ⟨news, hnews.events, hnews.once, hnews.entry, hnews.told⟩

/-- An entry is announced if it is there no more. -/
theorem Sheds.removed (h : Sheds now s t news) (key : String) :
    key ∈ news.map Event.key ↔ s.Holds key ∧ ¬t.Holds key := by
  constructor
  · intro hmem
    obtain ⟨event, hevent, rfl⟩ := List.mem_map.1 hmem
    obtain ⟨e, he, -⟩ := h.told event hevent
    refine ⟨⟨e, he⟩, not_holds_iff.2 ?_⟩
    rw [h.entry, if_pos hmem]
  · rintro ⟨hheld, hgone⟩
    by_contra hmem
    rw [Holds, h.entry, if_neg hmem] at hgone
    exact hgone hheld

theorem Sheds.ending_mem (h : Sheds now s t news) (he : s.entries.find? key = some e)
    (hgone : ¬t.Holds key) : ending now key e ∈ news := by
  obtain ⟨event, hevent, rfl⟩ := List.mem_map.1 ((h.removed key).2 ⟨⟨e, he⟩, hgone⟩)
  obtain ⟨e', he', hending⟩ := h.told event hevent
  obtain rfl := Option.some.inj (he.symm.trans he')
  rwa [← hending]

/-- An operation that drops entries, and no live one but what it deletes. -/
theorem Sheds.discloses (h : Sheds now s t news)
    (hlive : ∀ key, op ≠ .delete key → t.live? now key = s.live? now key)
    (hfills : ∀ key, s.fills key op = false) : Discloses now op s t news where
  events := h.events
  once := h.once
  removed := h.removed
  deleted key := by
    constructor
    · intro hmem
      obtain ⟨e, he, hending⟩ : ∃ e, s.entries.find? key = some e ∧ .deleted key = ending now key e :=
        h.told _ hmem
      have hgone := ((h.removed key).1 (List.mem_map_of_mem hmem)).2
      have hdeadline : now < e.deadline := by
        by_contra hdead
        rw [ending_of_dead (Nat.le_of_not_lt hdead)] at hending
        cases hending
      refine ⟨?_, hgone, e, he, hdeadline⟩
      by_contra hop
      have hsame := hlive key hop
      rw [live?, live?, not_holds_iff.1 hgone, he,
        seen_some_of_live (decide_eq_true hdeadline)] at hsame
      cases hsame
    · rintro ⟨-, hgone, e, he, hdeadline⟩
      have hmem := h.ending_mem he hgone
      rwa [ending_of_live hdeadline] at hmem
  expired key := by
    constructor
    · intro hmem
      obtain ⟨e, he, hending⟩ := h.told _ hmem
      refine ⟨((h.removed key).1 (List.mem_map_of_mem hmem)).2, e, he, ?_⟩
      by_contra hdead
      rw [ending_of_live (Nat.lt_of_not_le hdead)] at hending
      cases hending
    · rintro ⟨hgone, e, he, hdeadline⟩
      have hmem := h.ending_mem he hgone
      rwa [ending_of_dead hdeadline] at hmem
  added key := by
    rw [hfills]
    refine iff_of_false Bool.false_ne_true ?_
    rintro ⟨hnot, e, he⟩
    rw [h.entry, not_holds_iff.1 hnot, ite_self] at he
    cases he

/-! ### Writing -/

/-- An operation that writes one entry. -/
theorem discloses_insert (e : Entry)
    (hfills : ∀ other, s.fills other op = true ↔ other = key ∧ ¬s.Holds key) :
    Discloses now op s { s with entries := s.entries.insert key e } [] where
  events := (List.append_nil _).symm
  once := List.nodup_nil
  removed other := by
    refine ⟨nofun, ?_⟩
    rintro ⟨hheld, hgone⟩
    exact absurd (holds_insert hheld key e) hgone
  deleted other := by
    refine ⟨nofun, ?_⟩
    rintro ⟨-, hgone, e', he', -⟩
    exact absurd (holds_insert ⟨e', he'⟩ key e) hgone
  expired other := by
    refine ⟨nofun, ?_⟩
    rintro ⟨hgone, e', he', -⟩
    exact absurd (holds_insert ⟨e', he'⟩ key e) hgone
  added other := by
    rw [hfills]
    constructor
    · rintro ⟨rfl, hnot⟩
      exact ⟨hnot, e, Dict.find?_insert_self other e s.entries⟩
    · rintro ⟨hnot, e', he'⟩
      by_cases hother : other = key
      · subst hother
        exact ⟨rfl, hnot⟩
      · have hfind := (Dict.find?_insert_of_ne hother e s.entries).symm.trans he'
        exact absurd ⟨e', hfind⟩ hnot

/-! ### Operations -/

/-- An operation that only drops. -/
theorem discloses_of_turn (h : Turn now none s t) (hspares : Spares now (op ≠ .delete ·) s t)
    (hfills : ∀ key, s.fills key op = false) : ∃ news, Discloses now op s t news := by
  obtain ⟨news, hnews⟩ := h.sheds
  exact ⟨news, hnews.discloses hspares.live hfills⟩

/-- Every operation announces what it removes. -/
theorem discloses_apply (s : Store) (now : Nat) (op : Op) :
    ∃ news, Discloses now op s (s.apply now op).2 news := by
  cases op with
  | put key value ttl =>
    by_cases honline : s.available = true
    · refine ⟨[], ?_⟩
      simp only [apply, put, online_of_available honline]
      refine discloses_insert _ fun other => ?_
      rw [holds_iff]
      by_cases hother : other = key
      · simp [fills, honline, hother]
      · simp [fills, hother, Ne.symm hother]
    · have hoff := Bool.eq_false_iff.2 honline
      simp only [apply, put, online_of_offline hoff]
      exact discloses_of_turn (.refl s) (.refl s) fun other => by simp [fills, hoff]
  | get key => exact discloses_of_turn (turn_get key) (spares_get key) fun _ => rfl
  | refresh key ttl =>
    simp only [apply, refresh_eq]
    cases hlive : s.live? now key with
    | none =>
      exact discloses_of_turn (turn_online (turn_expire key)) (spares_online (spares_expire s key))
        fun _ => rfl
    | some e =>
      by_cases honline : s.available = true
      · refine ⟨[], ?_⟩
        have hheld : s.Holds key := ⟨e, (Option.filter_eq_some_iff.1 hlive).1⟩
        rw [online_of_available honline]
        exact discloses_insert _ fun other =>
          iff_of_false Bool.false_ne_true fun hnew => hnew.2 hheld
      · rw [online_of_offline (Bool.eq_false_iff.2 honline)]
        exact discloses_of_turn (.refl s) (.refl s) fun _ => rfl
  | delete key =>
    exact discloses_of_turn (turn_delete key) (spares_delete fun hne => hne rfl) fun _ => rfl
  | scan root => exact discloses_of_turn (turn_scan root) (spares_scan root) fun _ => rfl
  | sweep => exact discloses_of_turn turn_sweep spares_sweep fun _ => rfl
  | setAvailable available =>
    have hsheds : Sheds now s (s.setAvailable available) [] := .nothing rfl rfl
    exact ⟨[], hsheds.discloses (fun _ _ => rfl) fun _ => rfl⟩

/-! ### Answers -/

theorem find?_deleted_self (s : Store) (now : Nat) (key : String) :
    (s.deleted now key).entries.find? key = none := by
  unfold deleted
  split
  · split
    · exact Dict.find?_erase_self key s.entries
    · exact Dict.find?_erase_self key s.entries
  · next h => exact h

/-- A deletion says whether it has announced one. -/
theorem reports_delete (h : Discloses now (.delete key) s (s.apply now (.delete key)).2 news) :
    (s.apply now (.delete key)).1 = .ok (.flag true) ↔ .deleted key ∈ news := by
  rw [h.deleted]
  simp only [apply, delete_eq]
  by_cases honline : s.available = true
  · rw [online_of_available honline, not_holds_iff, find?_deleted_self, live?]
    cases s.entries.find? key with
    | none => simp [Except.map, seen]
    | some e => simp [Except.map, seen, Entry.live]
  · rw [online_of_offline (Bool.eq_false_iff.2 honline)]
    constructor
    · intro hanswer
      cases hanswer
    · rintro ⟨-, hgone, e, he, -⟩
      exact absurd ⟨e, he⟩ hgone

theorem length_events_expire (s : Store) (now : Nat) (key : String) :
    (s.expire now key).2.events.length = s.events.length + (s.expire now key).1.toNat := by
  unfold expire
  split
  · split
    · rfl
    · simp [drop]
  · rfl

/-- What is counted is announced. -/
theorem length_events_expireAll (s : Store) (now : Nat) (keys : List String) :
    (s.expireAll now keys).2.events.length = s.events.length + (s.expireAll now keys).1 := by
  induction keys generalizing s with
  | nil => rfl
  | cons key rest ih =>
    simp only [expireAll, ih, length_events_expire]
    cases (s.expire now key).1 with
    | true =>
      simp only [Bool.toNat_true, if_true]
      omega
    | false => simp

theorem reports_sweep (h : Discloses now .sweep s (s.apply now .sweep).2 news) :
    (s.apply now .sweep).1 = .ok (.count news.length) := by
  have hlength : (s.sweep now).2.events.length = s.events.length + (s.sweep now).1 :=
    length_events_expireAll s now _
  have hnews : (s.sweep now).2.events.length = s.events.length + news.length := by
    rw [← List.length_append, ← h.events]
    rfl
  have hcount : (s.sweep now).1 = news.length := by omega
  rw [apply, hcount]

theorem Discloses.reports (h : Discloses now op s (s.apply now op).2 news) :
    op.Reports now (s.apply now op).2 news (s.apply now op).1 := by
  cases op with
  | delete key => exact reports_delete h
  | sweep => exact ⟨reports_sweep h, outlives_sweep now s⟩
  | put _ _ _ | get _ | refresh _ _ | scan _ | setAvailable _ => trivial

/-! ### Accounts -/

/-- The announcements of a key in one operation, and the entries under it before and after. -/
theorem Discloses.account (h : Discloses now op s t news) (key : String) :
    news.countP (fun event => event.key = key) + (t.entries.contains key).toNat =
      (s.entries.contains key).toNat + (s.fills key op).toNat := by
  have hcount : news.countP (fun event => event.key = key) = (news.map Event.key).count key := by
    rw [List.count, List.countP_map]
    rfl
  have hremoved : key ∈ news.map Event.key ↔
      s.entries.contains key = true ∧ ¬t.entries.contains key = true := by
    rw [h.removed, holds_iff, holds_iff]
  have hadded : s.fills key op = true ↔
      ¬s.entries.contains key = true ∧ t.entries.contains key = true := by
    rw [h.added, holds_iff, holds_iff]
  rw [hcount, h.once.count, if_congr hremoved rfl rfl]
  cases hs : s.entries.contains key <;> cases ht : t.entries.contains key <;>
    cases hfills : s.fills key op <;> simp_all

/-- The account of one operation, added up over all of them. -/
theorem account_after (s : Store) (ops : List (Nat × Op)) (key : String) :
    (s.after ops).events.countP (fun event => event.key = key) +
        ((s.after ops).entries.contains key).toNat =
      s.events.countP (fun event => event.key = key) + (s.entries.contains key).toNat +
        filled key s ops := by
  induction ops generalizing s with
  | nil => rfl
  | cons timed rest ih =>
    obtain ⟨now, op⟩ := timed
    obtain ⟨news, hnews⟩ := discloses_apply s now op
    have haccount := hnews.account key
    have hrest := ih (s.apply now op).2
    rw [hnews.events, List.countP_append] at hrest
    have hcons : s.after ((now, op) :: rest) = (s.apply now op).2.after rest := rfl
    rw [hcons, filled]
    omega

/-- **Every removal is announced exactly once, and truthfully.** After any operations on a store that
was empty, a key was announced once for each put that found no entry under it, less the entry that is
there now. Whatever is done next, and when, is announced for what it removes and by what that was:
nothing live is announced as expired, a deletion says so exactly if it removed a live entry, and a
sweep counts its announcements and leaves no lease that has ended. -/
theorem removals_announced (ops : List (Nat × Op)) :
    (∀ key, (after {} ops).events.countP (fun event => event.key = key) +
      ((after {} ops).entries.contains key).toNat = filled key {} ops) ∧
      ∀ now op, ∃ news,
        Discloses now op (after {} ops) ((after {} ops).apply now op).2 news ∧
          op.Reports now ((after {} ops).apply now op).2 news ((after {} ops).apply now op).1 := by
  refine ⟨fun key => ?_, fun now op => ?_⟩
  · have haccount := account_after {} ops key
    have hempty : Dict.contains key ([] : Dict Entry) = false := rfl
    simpa [hempty] using haccount
  · obtain ⟨news, hnews⟩ := discloses_apply (after {} ops) now op
    exact ⟨news, hnews, hnews.reports⟩

/-- An entry that is overwritten after its end is not announced, and the put found one. -/
example :
    let ops : List (Nat × Op) := [(0, .put "a" "1" 5), (6, .put "a" "2" 5), (7, .delete "a"),
      (8, .put "a" "3" 2), (10, .get "a"), (11, .put "a" "4" 9)]
    (after {} ops).events = [.deleted "a", .expired "a"] ∧ filled "a" {} ops = 3 := by
  decide

end RemoteCall.Registry.Store
