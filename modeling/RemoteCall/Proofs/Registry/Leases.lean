import Mathlib.Data.List.Sort
import RemoteCall.Registry.Store

/-! What the store is to those who use it: a map whose entries end by themselves.

The store drops an entry some time after its lease has ended, when something comes across
it. `Leases` drops nothing: there an entry is present exactly while its deadline lies in the
future. The two cannot be told apart by any answer (`answers_leases`), and so neither sweeps
nor reads, which change nothing in `Leases`, have a bearing on any later answer. -/
namespace RemoteCall.Registry

/-- A map from keys to values with deadlines, from which nothing is ever dropped. -/
structure Leases where
  entry : String → Option Entry := fun _ => none
  available : Bool := true

/-! ### Time -/

/-- The part of an entry that can be seen at a time. -/
def seen (now : Nat) (e : Option Entry) : Option Entry := e.filter fun e => e.live now

theorem seen_none (now : Nat) : seen now none = none := rfl

theorem seen_some_of_live {now : Nat} {e : Entry} (h : e.live now = true) :
    seen now (some e) = some e := by
  rw [seen, Option.filter, if_pos h]

theorem seen_some_of_dead {now : Nat} {e : Entry} (h : e.live now = false) :
    seen now (some e) = none := by
  rw [seen, Option.filter, if_neg (Bool.eq_false_iff.1 h)]

/-- What can be seen later can be seen now. -/
theorem seen_seen {now later : Nat} (h : now ≤ later) (e : Option Entry) :
    seen later (seen now e) = seen later e := by
  cases e with
  | none => rfl
  | some e =>
    cases hnow : e.live now with
    | true => rw [seen_some_of_live hnow]
    | false =>
      have hlater : e.live later = false := by
        simp only [Entry.live, decide_eq_false_iff_not] at *
        omega
      rw [seen_some_of_dead hnow, seen_some_of_dead hlater, seen_none]

namespace Store

/-- The entry under a key that is live. -/
def live? (s : Store) (now : Nat) (key : String) : Option Entry := seen now (s.entries.find? key)

/-- Whether an operation needs the store to be online. -/
def Op.asks : Op → Bool
  | put _ _ _ | get _ | refresh _ _ | delete _ | scan _ => true
  | sweep | setAvailable _ => false

/-- Whether an operation is there to read or to sweep only. -/
def Op.looks : Op → Bool
  | get _ | scan _ | sweep => true
  | put _ _ _ | refresh _ _ | delete _ | setAvailable _ => false

/-- The store after some operations, each at its time. -/
def after (s : Store) (ops : List (Nat × Op)) : Store :=
  ops.foldl (fun s (now, op) => (s.apply now op).2) s

end Store

open Store (Op Reply under offline)

/-! ### The map -/

namespace Leases

/-- The entry under a key that is live. -/
def live? (m : Leases) (now : Nat) (key : String) : Option Entry := seen now (m.entry key)

def set (m : Leases) (key : String) (e : Option Entry) : Leases :=
  { m with entry := fun other => if other = key then e else m.entry other }

def apply (m : Leases) (now : Nat) : Op → Leases
  | .put key value ttl => if m.available then m.set key (some ⟨value, now + ttl⟩) else m
  | .refresh key ttl =>
    match m.available, m.live? now key with
    | true, some e => m.set key (some { e with deadline := now + ttl })
    | _, _ => m
  | .delete key => if m.available then m.set key none else m
  | .setAvailable available => { m with available := available }
  | .get _ | .scan _ | .sweep => m

/-- The map after some operations, each at its time. -/
def after (m : Leases) (ops : List (Nat × Op)) : Leases :=
  ops.foldl (fun m (now, op) => m.apply now op) m

def online (m : Leases) (reply : Reply) : Except RegistryError Reply :=
  if m.available then .ok reply else .error offline

/-- Whether this is what the map has to say. Nothing is asked of the count of a sweep. -/
def Answers (m : Leases) (now : Nat) (answer : Except RegistryError Reply) : Op → Prop
  | .put _ _ _ => answer = m.online .done
  | .get key => answer = m.online (.value ((m.live? now key).map Entry.value))
  | .refresh key _ | .delete key => answer = m.online (.flag (m.live? now key).isSome)
  | .scan root => ∃ found, answer = m.online (.records found) ∧ Dict.Sorted found ∧
    ∀ key value, (key, value) ∈ found ↔
      under root key = true ∧ (m.live? now key).map Entry.value = some value
  | .sweep => ∃ n, answer = .ok (.count n)
  | .setAvailable _ => answer = .ok .done

end Leases

/-! ### What is dropped was not seen -/

namespace Store
variable {now : Nat} {s : Store} {key : String}

theorem live?_drop (s : Store) (now : Nat) (event : Event) (key : String) :
    (s.drop event).live? now key = if key = event.key then none else s.live? now key := by
  unfold live? drop
  dsimp only
  split
  · next h =>
    subst h
    rw [Dict.find?_erase_self, seen_none]
  · next h => rw [Dict.find?_erase_of_ne h]

theorem live?_insert (s : Store) (now : Nat) (key : String) (e : Entry) (other : String) :
    live? { s with entries := s.entries.insert key e } now other =
      if other = key then seen now (some e) else s.live? now other := by
  unfold live?
  dsimp only
  split
  · next h =>
    subst h
    rw [Dict.find?_insert_self]
  · next h => rw [Dict.find?_insert_of_ne h]

theorem live?_expire (s : Store) (now : Nat) (key other : String) :
    (s.expire now key).2.live? now other = s.live? now other := by
  unfold expire
  split
  · next e he =>
    split
    · rfl
    · next hdead =>
      refine (live?_drop s now _ other).trans ?_
      split
      · next h =>
        obtain rfl : other = key := h
        rw [live?, he, seen_some_of_dead (Bool.eq_false_iff.2 hdead)]
      · rfl
  · rfl

theorem live?_expireAll (s : Store) (now : Nat) (keys : List String) (other : String) :
    (s.expireAll now keys).2.live? now other = s.live? now other := by
  induction keys generalizing s with
  | nil => rfl
  | cons key rest ih => exact (ih _).trans (live?_expire s now key other)

/-- What dropping leaves alone. -/
theorem expire_keeps (hs : s.entries.Sorted) (now : Nat) (key : String) :
    (s.expire now key).2.entries.Sorted ∧ (s.expire now key).2.available = s.available := by
  unfold expire
  split
  · split
    · exact ⟨hs, rfl⟩
    · exact ⟨hs.filter _, rfl⟩
  · exact ⟨hs, rfl⟩

theorem expireAll_keeps (hs : s.entries.Sorted) (keys : List String) :
    (s.expireAll now keys).2.entries.Sorted ∧
      (s.expireAll now keys).2.available = s.available := by
  induction keys generalizing s with
  | nil => exact ⟨hs, rfl⟩
  | cons key rest ih =>
    obtain ⟨hsorted, havailable⟩ := expire_keeps hs now key
    obtain ⟨hrest, hsame⟩ := ih hsorted
    exact ⟨hrest, hsame.trans havailable⟩

/-! ### Operations by what is seen -/

theorem get_eq (s : Store) (now : Nat) (key : String) :
    s.get now key = s.online ((s.live? now key).map Entry.value, (s.expire now key).2) := by
  unfold get live? expire
  cases s.entries.find? key with
  | none => rfl
  | some e =>
    cases h : e.live now with
    | true => simp [seen_some_of_live h, h]
    | false => simp [seen_some_of_dead h, h]

theorem refresh_eq (s : Store) (now : Nat) (key : String) (ttl : Nat) :
    s.refresh now key ttl = s.online
      (match s.live? now key with
      | some e => (true, { s with entries := s.entries.insert key { e with deadline := now + ttl } })
      | none => (false, (s.expire now key).2)) := by
  unfold refresh live? expire
  cases s.entries.find? key with
  | none => rfl
  | some e =>
    cases h : e.live now with
    | true => simp [seen_some_of_live h, h]
    | false => simp [seen_some_of_dead h, h]

/-- What a deletion leaves, if the store is online. -/
def deleted (s : Store) (now : Nat) (key : String) : Store :=
  match s.entries.find? key with
  | some e => if e.live now then s.drop (.deleted key) else s.drop (.expired key)
  | none => s

theorem delete_eq (s : Store) (now : Nat) (key : String) :
    s.delete now key = s.online ((s.live? now key).isSome, s.deleted now key) := by
  unfold delete deleted live?
  cases s.entries.find? key with
  | none => rfl
  | some e =>
    cases h : e.live now with
    | true => simp [seen_some_of_live h, h]
    | false => simp [seen_some_of_dead h, h]

theorem deleted_keeps (hs : s.entries.Sorted) (now : Nat) (key : String) :
    (s.deleted now key).entries.Sorted ∧ (s.deleted now key).available = s.available := by
  unfold deleted
  split
  · split
    · exact ⟨hs.filter _, rfl⟩
    · exact ⟨hs.filter _, rfl⟩
  · exact ⟨hs, rfl⟩

theorem live?_deleted (s : Store) (now : Nat) (key other : String) :
    (s.deleted now key).live? now other = if other = key then none else s.live? now other := by
  unfold deleted
  split
  · split
    · exact live?_drop s now _ other
    · exact live?_drop s now _ other
  · next h =>
    split
    · next heq =>
      subst heq
      rw [live?, h, seen_none]
    · rfl

/-- The entries that a scan finds. -/
def found (s : Store) (now : Nat) (root : String) : Dict Entry :=
  s.entries.filter fun (key, e) => under root key && e.live now

/-- What a scan leaves, if the store is online. -/
def scanned (s : Store) (now : Nat) (root : String) : Store :=
  (s.expireAll now
    ((s.entries.filter fun (key, e) => under root key && !e.live now).map Prod.fst)).2

theorem scan_eq (s : Store) (now : Nat) (root : String) :
    s.scan now root =
      s.online ((s.found now root).map fun (key, e) => (key, e.value), s.scanned now root) := by
  unfold scan found scanned
  simp only [List.partition_eq_filter_filter, List.filter_filter, Function.comp_def]
  simp only [Bool.and_comm]

/-- A scan finds what can be seen under its root. -/
theorem mem_found (hs : s.entries.Sorted) {root : String} {e : Entry} :
    (key, e) ∈ s.found now root ↔ under root key = true ∧ s.live? now key = some e := by
  rw [found, List.mem_filter, hs.mem_iff, Bool.and_eq_true, live?, seen, Option.filter_eq_some_iff]
  exact and_left_comm

theorem mem_values_found (hs : s.entries.Sorted) {root value : String} :
    (key, value) ∈ (s.found now root).map (fun (key, e) => (key, e.value)) ↔
      under root key = true ∧ (s.live? now key).map Entry.value = some value := by
  simp only [List.mem_map, Prod.mk.injEq, Prod.exists, Option.map_eq_some_iff]
  constructor
  · rintro ⟨_, e, he, rfl, rfl⟩
    obtain ⟨hunder, hlive⟩ := (mem_found hs).1 he
    exact ⟨hunder, e, hlive, rfl⟩
  · rintro ⟨hunder, e, hlive, rfl⟩
    exact ⟨key, e, (mem_found hs).2 ⟨hunder, hlive⟩, rfl, rfl⟩

theorem sorted_values_found (hs : s.entries.Sorted) (now : Nat) (root : String) :
    Dict.Sorted ((s.found now root).map fun (key, e) => (key, e.value)) :=
  List.pairwise_map.2 (hs.filter _)

/-- An operation that needs the store fails while it is offline, and leaves no trace. -/
theorem apply_offline (h : s.available = false) {op : Op} (hasks : op.asks = true) (now : Nat) :
    s.apply now op = (.error offline, s) := by
  have honline {α : Type} (f : α × Store) : s.online f = (.error offline, s) :=
    if_neg (Bool.eq_false_iff.1 h)
  cases op with
  | put key value ttl => simp only [apply, put, honline, Except.map]
  | get key => simp only [apply, get, honline, Except.map]
  | refresh key ttl => simp only [apply, refresh, honline, Except.map]
  | delete key => simp only [apply, delete, honline, Except.map]
  | scan root => simp only [apply, scan, honline, Except.map]
  | sweep | setAvailable _ => cases hasks

end Store

/-! ### The store shows the map -/

/-- Whether a store shows what is in a map from some time on. -/
structure Shows (now : Nat) (s : Store) (m : Leases) : Prop where
  sorted : s.entries.Sorted
  available : s.available = m.available
  live : ∀ key, s.live? now key = m.live? now key

namespace Shows
variable {now later : Nat} {s : Store} {m : Leases}

theorem empty : Shows 0 {} {} := ⟨Dict.sorted_nil, rfl, fun _ => rfl⟩

theorem mono (h : Shows now s m) (hlater : now ≤ later) : Shows later s m where
  sorted := h.sorted
  available := h.available
  live key := by
    have hkey := congrArg (seen later) (h.live key)
    rwa [Store.live?, Leases.live?, seen_seen hlater, seen_seen hlater] at hkey

/-- What is dropped without being seen is not missed. -/
theorem congr {t : Store} (h : Shows now s m)
    (hkeeps : t.entries.Sorted ∧ t.available = s.available)
    (hlive : ∀ key, t.live? now key = s.live? now key) : Shows now t m :=
  ⟨hkeeps.1, hkeeps.2.trans h.available, fun key => (hlive key).trans (h.live key)⟩

theorem insert (h : Shows now s m) (key : String) (e : Entry) :
    Shows now { s with entries := s.entries.insert key e } (m.set key (some e)) where
  sorted := h.sorted.insert key e
  available := h.available
  live other := by
    rw [Store.live?_insert, Leases.live?, Leases.set]
    dsimp only
    split
    · rfl
    · exact h.live other

theorem deleted (h : Shows now s m) (key : String) :
    Shows now (s.deleted now key) (m.set key none) where
  sorted := (Store.deleted_keeps h.sorted now key).1
  available := (Store.deleted_keeps h.sorted now key).2.trans h.available
  live other := by
    rw [Store.live?_deleted, Leases.live?, Leases.set]
    dsimp only
    split
    · rfl
    · exact h.live other

theorem expire (h : Shows now s m) (key : String) : Shows now (s.expire now key).2 m :=
  h.congr (Store.expire_keeps h.sorted now key) (Store.live?_expire s now key)

theorem expireAll (h : Shows now s m) (keys : List String) :
    Shows now (s.expireAll now keys).2 m :=
  h.congr (Store.expireAll_keeps h.sorted keys) (Store.live?_expireAll s now keys)

/-- The store and the map are online at the same times. -/
theorem online_fst (h : Shows now s m) {α : Type} (f : α × Store) (reply : α → Reply) :
    (s.online f).1.map reply = m.online (reply f.1) := by
  unfold Store.online Leases.online
  rw [h.available]
  split
  · rfl
  · rfl

theorem online_snd (h : Shows now s m) {α : Type} {f : α × Store} {m' : Leases}
    (h' : Shows now f.2 m') : Shows now (s.online f).2 (if m.available then m' else m) := by
  unfold Store.online
  rw [h.available]
  split
  · exact h'
  · exact h

/-- An operation that changes nothing in the map. -/
theorem online_look (h : Shows now s m) {α : Type} {f : α × Store} (h' : Shows now f.2 m) :
    Shows now (s.online f).2 m := by
  have hboth := h.online_snd h'
  rwa [ite_self] at hboth

/-! ### Steps and runs -/

/-- **Every operation gets the answer of the map, and keeps the store and the map in step.** -/
theorem apply (h : Shows now s m) (op : Op) :
    m.Answers now (s.apply now op).1 op ∧ Shows now (s.apply now op).2 (m.apply now op) := by
  cases op with
  | put key value ttl =>
    exact ⟨h.online_fst _ _, h.online_snd (f := ((), _)) (h.insert key ⟨value, now + ttl⟩)⟩
  | get key =>
    simp only [Store.apply, Store.get_eq]
    refine ⟨(h.online_fst _ _).trans ?_, h.online_look (h.expire key)⟩
    rw [h.live key]
  | refresh key ttl =>
    simp only [Store.apply, Store.refresh_eq, Leases.Answers, Leases.apply, h.live key]
    cases hlive : m.live? now key with
    | none =>
      refine ⟨h.online_fst _ _, ?_⟩
      cases m.available with
      | true => exact h.online_look (h.expire key)
      | false => exact h.online_look (h.expire key)
    | some e =>
      refine ⟨h.online_fst _ _, ?_⟩
      have hboth := h.online_snd (f := (true, _)) (h.insert key { e with deadline := now + ttl })
      cases havailable : m.available with
      | true => rwa [havailable] at hboth
      | false => rwa [havailable] at hboth
  | delete key =>
    simp only [Store.apply, Store.delete_eq]
    refine ⟨(h.online_fst _ _).trans ?_, h.online_snd (h.deleted key)⟩
    rw [h.live key]
  | scan root =>
    simp only [Store.apply, Store.scan_eq]
    refine ⟨⟨_, h.online_fst _ _, Store.sorted_values_found h.sorted now root, fun key value => ?_⟩,
      h.online_look (h.expireAll _)⟩
    rw [Store.mem_values_found h.sorted, h.live key]
  | sweep => exact ⟨⟨_, rfl⟩, h.expireAll _⟩
  | setAvailable available => exact ⟨rfl, h.sorted, rfl, h.live⟩

/-- A store and a map stay in step through operations at rising times. -/
theorem after (h : Shows now s m) {ops : List (Nat × Op)}
    (htimes : (now :: ops.map Prod.fst ++ [later]).Pairwise (· ≤ ·)) :
    Shows later (s.after ops) (m.after ops) := by
  induction ops generalizing now s m with
  | nil =>
    refine h.mono ((List.pairwise_cons.1 htimes).1 later ?_)
    exact List.mem_cons_self
  | cons timed rest ih =>
    obtain ⟨moment, op⟩ := timed
    obtain ⟨hfirst, hrest⟩ := List.pairwise_cons.1 htimes
    have hmoment := h.mono (hfirst moment List.mem_cons_self)
    exact ih (hmoment.apply op).2 hrest

end Shows

/-! ### Answers -/

/-- Two listings of the same entries are the same. -/
theorem Dict.Sorted.ext {α : Type} {d d' : Dict α} (h : d.Sorted) (h' : d'.Sorted)
    (hsame : ∀ key value, (key, value) ∈ d ↔ (key, value) ∈ d') : d = d' := by
  have hirrefl : Std.Irrefl fun a b : String × α => a.1 < b.1 := ⟨fun a => String.lt_irrefl a.1⟩
  have hantisymm : Std.Antisymm fun a b : String × α => a.1 < b.1 :=
    ⟨fun a b hab hba => absurd (String.lt_trans hab hba) (String.lt_irrefl a.1)⟩
  exact List.Pairwise.eq_of_mem_iff h h' fun (key, value) => hsame key value

namespace Leases
variable {now : Nat} {m : Leases}

/-- The map has one answer to every operation but to a sweep. -/
theorem Answers.unique {a b : Except RegistryError Reply} {op : Op} (hop : op ≠ .sweep)
    (ha : m.Answers now a op) (hb : m.Answers now b op) : a = b := by
  cases op with
  | scan root =>
    obtain ⟨found, rfl, hsorted, hmem⟩ := ha
    obtain ⟨others, rfl, hsorted', hmem'⟩ := hb
    have hsame : found = others := Dict.Sorted.ext hsorted hsorted' fun key value =>
      (hmem key value).trans (hmem' key value).symm
    rw [hsame]
  | sweep => exact absurd rfl hop
  | put _ _ _ | get _ | refresh _ _ | delete _ | setAvailable _ => exact Eq.trans ha hb.symm

theorem apply_looks {op : Op} (h : op.looks = true) (m : Leases) (now : Nat) :
    m.apply now op = m := by
  cases op with
  | get _ | scan _ | sweep => rfl
  | put _ _ _ | refresh _ _ | delete _ | setAvailable _ => cases h

/-- What reads and sweeps among some operations leave out. -/
theorem after_filter (m : Leases) (ops : List (Nat × Op)) :
    m.after (ops.filter fun x => !x.2.looks) = m.after ops := by
  induction ops generalizing m with
  | nil => rfl
  | cons timed rest ih =>
    obtain ⟨moment, op⟩ := timed
    cases h : op.looks with
    | true =>
      rw [List.filter_cons_of_neg (by simp [h])]
      exact (ih m).trans (congrArg (Leases.after · rest) (apply_looks h m moment).symm)
    | false =>
      rw [List.filter_cons_of_pos (by simp [h])]
      exact ih _

end Leases

/-- Whether operations, and one more, come at rising times. -/
def Timely (ops : List (Nat × Op)) (now : Nat) : Prop :=
  (ops.map Prod.fst ++ [now]).Pairwise (· ≤ ·)

instance (ops : List (Nat × Op)) (now : Nat) : Decidable (Timely ops now) :=
  inferInstanceAs (Decidable (List.Pairwise _ _))

/-- A new store and an empty map stay in step. -/
theorem Timely.shows {ops : List (Nat × Op)} {now : Nat} (h : Timely ops now) :
    Shows now (Store.after {} ops) (Leases.after {} ops) :=
  Shows.empty.after (List.pairwise_cons.2 ⟨fun moment _ => Nat.zero_le moment, h⟩)

/-- **A store answers as the map does, in which an entry is there while its deadline lies in
the future.** Two histories that differ in reads and sweeps alone give the same answer, and
while the store is offline, it changes nothing. -/
theorem answers_leases {early : List (Nat × Op)} {now : Nat} (htimely : Timely early now)
    (op : Op) :
    (Leases.after {} early).Answers now ((Store.after {} early).apply now op).1 op ∧
      (∀ other, Timely other now →
        (other.filter fun x => !x.2.looks) = (early.filter fun x => !x.2.looks) → op ≠ .sweep →
        ((Store.after {} other).apply now op).1 = ((Store.after {} early).apply now op).1) ∧
      ((Store.after {} early).available = false → op.asks = true →
        (Store.after {} early).apply now op = (.error offline, Store.after {} early)) := by
  have hearly := (htimely.shows.apply op).1
  refine ⟨hearly, fun other htimely' hsame hop => ?_, fun hoff hasks => ?_⟩
  · have hother := (htimely'.shows.apply op).1
    rw [← Leases.after_filter, hsame, Leases.after_filter] at hother
    exact Leases.Answers.unique hop hother hearly
  · exact Store.apply_offline hoff hasks now

/-- An entry whose lease ended just now is there still in one store and swept in the other. -/
theorem answers_leases_at_deadline :
    let early : List (Nat × Op) := [(0, .put "a" "1" 5), (1, .put "b" "2" 9), (3, .refresh "a" 2)]
    let other : List (Nat × Op) :=
      [(0, .put "a" "1" 5), (0, .get "b"), (1, .put "b" "2" 9), (3, .refresh "a" 2), (5, .sweep)]
    Timely early 5 ∧ (Store.after {} early).size = 2 ∧ (Store.after {} other).size = 1 ∧
      (Leases.after {} early).Answers 5 (.ok (.records [("b", "2")])) (.scan "") ∧
      ((Store.after {} other).apply 5 (.scan "")).1 = .ok (.records [("b", "2")]) := by
  intro early other
  have htimely : Timely early 5 := by decide
  have hscan : ((Store.after {} early).apply 5 (.scan "")).1 = .ok (.records [("b", "2")]) := by
    decide
  obtain ⟨hanswers, hsame, -⟩ := answers_leases htimely (.scan "")
  rw [hscan] at hanswers hsame
  refine ⟨htimely, by decide, by decide, hanswers, hsame other (by decide) (by decide) (by decide)⟩

end RemoteCall.Registry
