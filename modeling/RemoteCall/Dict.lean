/-! Dictionaries with texts as keys.

Entries stand in ascending order of their keys (by code point), so a listing is sorted
without further ado. The laws of looking up hold of any list of entries; `insert` keeps
a sorted list sorted and each key single (`Sorted.insert`). -/
namespace RemoteCall

/-- Entries in ascending order of their keys, each key once. -/
abbrev Dict (α : Type) : Type := List (String × α)

namespace Dict
variable {α : Type}

/-- Puts an entry in its place; a later entry for a key replaces the earlier one. -/
def insert (key : String) (value : α) : Dict α → Dict α
  | [] => [(key, value)]
  | (k, v) :: rest =>
    if key < k then (key, value) :: (k, v) :: rest
    else if key = k then (key, value) :: rest
    else (k, v) :: insert key value rest

/-- The dictionary of some entries, where later ones win. -/
def ofEntries (entries : List (String × α)) : Dict α :=
  entries.foldl (fun d (k, v) => Dict.insert k v d) []

def find? (key : String) : Dict α → Option α
  | [] => none
  | (k, v) :: rest => if key = k then some v else find? key rest

def erase (key : String) (d : Dict α) : Dict α := d.filter fun (k, _) => k ≠ key

def contains (key : String) (d : Dict α) : Bool := (d.find? key).isSome

def keys (d : Dict α) : List String := d.map Prod.fst

def values (d : Dict α) : List α := d.map Prod.snd

@[simp] theorem find?_nil (key : String) : find? key ([] : Dict α) = none := rfl

@[simp] theorem find?_insert_self (key : String) (value : α) (d : Dict α) :
    (Dict.insert key value d).find? key = some value := by
  induction d with
  | nil => simp [insert, find?]
  | cons e rest ih =>
    obtain ⟨k, v⟩ := e
    simp only [insert]
    split
    · simp [find?]
    · split
      · simp [find?]
      · next h => simp [find?, h, ih]

theorem find?_insert_of_ne {key other : String} (h : other ≠ key) (value : α) (d : Dict α) :
    (Dict.insert key value d).find? other = d.find? other := by
  induction d with
  | nil => simp [insert, find?, h]
  | cons e rest ih =>
    obtain ⟨k, v⟩ := e
    simp only [insert]
    split
    · simp [find?, h]
    · split
      · next hk => subst hk; simp [find?, h]
      · simp [find?, ih]

@[simp] theorem find?_erase_self (key : String) (d : Dict α) : (d.erase key).find? key = none := by
  induction d with
  | nil => rfl
  | cons e rest ih =>
    obtain ⟨k, v⟩ := e
    by_cases h : k = key
    · simpa [erase, h] using ih
    · have : key ≠ k := fun e => h e.symm
      simpa [erase, h, find?, this] using ih

theorem find?_erase_of_ne {key other : String} (h : other ≠ key) (d : Dict α) :
    (d.erase key).find? other = d.find? other := by
  induction d with
  | nil => rfl
  | cons e rest ih =>
    obtain ⟨k, v⟩ := e
    by_cases hk : k = key
    · subst hk
      simpa [erase, find?, h] using ih
    · by_cases ho : other = k
      · simp [erase, hk, find?, ho]
      · simpa [erase, hk, find?, ho] using ih

theorem mem_of_find? {key : String} {value : α} {d : Dict α} (h : d.find? key = some value) :
    (key, value) ∈ d := by
  induction d with
  | nil => cases h
  | cons e rest ih =>
    obtain ⟨k, v⟩ := e
    simp only [find?] at h
    split at h
    · next hk =>
      obtain rfl := Option.some.inj h
      exact hk ▸ List.mem_cons_self
    · exact List.mem_cons_of_mem _ (ih h)

theorem mem_keys {key : String} {d : Dict α} : key ∈ d.keys ↔ (d.find? key).isSome = true := by
  induction d with
  | nil => simp [keys]
  | cons e rest ih =>
    obtain ⟨k, v⟩ := e
    show key ∈ k :: rest.map Prod.fst ↔ _
    rw [List.mem_cons, find?]
    split
    · next h => exact ⟨fun _ => rfl, fun _ => .inl h⟩
    · next h => exact (or_iff_right h).trans ih

theorem mem_of_mem_insert {key : String} {value : α} {d : Dict α} {e : String × α}
    (h : e ∈ Dict.insert key value d) : e = (key, value) ∨ e ∈ d := by
  induction d with
  | nil => exact .inl (by simpa [insert] using h)
  | cons e' rest ih =>
    obtain ⟨k, v⟩ := e'
    simp only [insert] at h
    split at h
    · exact (List.mem_cons.1 h).imp_right id
    · split at h
      · exact (List.mem_cons.1 h).imp_right (List.mem_cons_of_mem _)
      · rcases List.mem_cons.1 h with rfl | h
        · exact .inr List.mem_cons_self
        · exact (ih h).imp_right (List.mem_cons_of_mem _)

theorem find?_filter_of_none {key : String} {d : Dict α} (h : d.find? key = none)
    (keep : String × α → Bool) : find? key (d.filter keep) = none := by
  induction d with
  | nil => rfl
  | cons e rest ih =>
    obtain ⟨k, v⟩ := e
    simp only [find?] at h
    split at h
    · cases h
    · next hk =>
      rw [List.filter_cons]
      split
      · simp [find?, hk, ih h]
      · exact ih h

/-- What is looked up stays in a dictionary that keeps its entry. -/
theorem find?_filter_of_some {key : String} {value : α} {d : Dict α}
    (h : d.find? key = some value) {keep : String × α → Bool} (hkeep : keep (key, value) = true) :
    find? key (d.filter keep) = some value := by
  induction d with
  | nil => cases h
  | cons e rest ih =>
    obtain ⟨k, v⟩ := e
    simp only [find?] at h
    split at h
    · next hk =>
      subst hk
      obtain rfl := Option.some.inj h
      simp [hkeep, find?]
    · next hk =>
      rw [List.filter_cons]
      split
      · simp [find?, hk, ih h]
      · exact ih h

/-- A choice by the key keeps an entry or drops it. -/
theorem find?_filter_key (d : Dict α) (keep : String → Bool) (key : String) :
    find? key (d.filter fun (k, _) => keep k) = if keep key then d.find? key else none := by
  cases hkeep : keep key with
  | true =>
    rw [if_pos rfl]
    cases hd : d.find? key with
    | none => exact find?_filter_of_none hd _
    | some value => exact find?_filter_of_some hd hkeep
  | false =>
    rw [if_neg Bool.false_ne_true]
    induction d with
    | nil => rfl
    | cons e rest ih =>
      obtain ⟨k, v⟩ := e
      cases hk : keep k with
      | true =>
        have hne : key ≠ k := by
          rintro rfl
          rw [hkeep] at hk
          cases hk
        simpa [hk, find?, hne] using ih
      | false => simpa [hk] using ih

theorem find?_map {β : Type} (f : α → β) (key : String) (d : Dict α) :
    find? key (d.map fun (k, v) => (k, f v)) = (d.find? key).map f := by
  induction d with
  | nil => rfl
  | cons e rest ih =>
    obtain ⟨k, v⟩ := e
    simp only [List.map_cons, Dict.find?]
    split
    · rfl
    · exact ih

/-! ### Order -/

/-- Keys stand in ascending order, each of them once. -/
def Sorted (d : Dict α) : Prop := d.Pairwise fun a b => a.1 < b.1

theorem sorted_nil : Sorted ([] : Dict α) := List.Pairwise.nil

theorem Sorted.filter {d : Dict α} (h : d.Sorted) (keep : String × α → Bool) :
    Sorted (d.filter keep) := List.Pairwise.filter keep h

theorem Sorted.insert {d : Dict α} (h : d.Sorted) (key : String) (value : α) :
    (Dict.insert key value d).Sorted := by
  induction d with
  | nil => exact List.pairwise_singleton _ _
  | cons e rest ih =>
    obtain ⟨k, v⟩ := e
    obtain ⟨hfirst, hrest⟩ := List.pairwise_cons.1 h
    simp only [Dict.insert]
    split
    · next hlt =>
      refine List.pairwise_cons.2 ⟨fun e he => ?_, h⟩
      obtain rfl | he := List.mem_cons.1 he
      · exact hlt
      · exact String.lt_trans hlt (hfirst e he)
    · next hge =>
      split
      · next heq =>
        subst heq
        exact List.pairwise_cons.2 ⟨hfirst, hrest⟩
      · next hne =>
        refine List.pairwise_cons.2 ⟨fun e he => ?_, ih hrest⟩
        obtain rfl | he := mem_of_mem_insert he
        · exact Std.lt_of_le_of_ne (String.not_lt.1 hge) (Ne.symm hne)
        · exact hfirst e he

/-- An entry of a sorted dictionary is the one that is found under its key. -/
theorem Sorted.find?_of_mem {d : Dict α} (h : d.Sorted) {key : String} {value : α}
    (hmem : (key, value) ∈ d) : d.find? key = some value := by
  induction d with
  | nil => cases hmem
  | cons e rest ih =>
    obtain ⟨k, v⟩ := e
    obtain ⟨hfirst, hrest⟩ := List.pairwise_cons.1 h
    obtain heq | hmem := List.mem_cons.1 hmem
    · cases heq
      exact if_pos rfl
    · have hlt := hfirst _ hmem
      have hne : key ≠ k := by
        rintro rfl
        exact String.lt_irrefl _ hlt
      rw [find?, if_neg hne]
      exact ih hrest hmem

theorem Sorted.mem_iff {d : Dict α} (h : d.Sorted) {key : String} {value : α} :
    (key, value) ∈ d ↔ d.find? key = some value :=
  ⟨h.find?_of_mem, mem_of_find?⟩

/-- What is found in a selection is what is found, if it was selected. -/
theorem Sorted.find?_filter {d : Dict α} (h : d.Sorted) (keep : String × α → Bool) (key : String) :
    find? key (d.filter keep) = (d.find? key).filter fun value => keep (key, value) := by
  cases hd : d.find? key with
  | none => exact find?_filter_of_none hd keep
  | some value =>
    cases hkeep : keep (key, value) with
    | true =>
      rw [find?_filter_of_some hd hkeep, Option.filter_some, if_pos hkeep]
    | false =>
      rw [Option.filter_some, hkeep, if_neg Bool.false_ne_true]
      refine Option.eq_none_iff_forall_ne_some.2 fun other hother => ?_
      obtain ⟨hmem, hother⟩ := List.mem_filter.1 (mem_of_find? hother)
      obtain rfl := Option.some.inj (hd.symm.trans (h.find?_of_mem hmem))
      rw [hkeep] at hother
      cases hother

theorem find?_insert (key : String) (value : α) (d : Dict α) (other : String) :
    (Dict.insert key value d).find? other = if other = key then some value else d.find? other := by
  split
  · next h => rw [h, find?_insert_self]
  · next h => exact find?_insert_of_ne h value d

theorem find?_erase (key : String) (d : Dict α) (other : String) :
    (d.erase key).find? other = if other = key then none else d.find? other := by
  split
  · next h => rw [h, find?_erase_self]
  · next h => exact find?_erase_of_ne h d

/-! ### Listings -/

/-- A new key is one more entry. -/
theorem perm_insert {key : String} {d : Dict α} (h : key ∉ d.keys) (value : α) :
    (Dict.insert key value d).Perm ((key, value) :: d) := by
  induction d with
  | nil => exact .refl _
  | cons e rest ih =>
    obtain ⟨k, v⟩ := e
    obtain ⟨hne, hrest⟩ := not_or.1 (mt List.mem_cons.2 h)
    by_cases hlt : key < k
    · rw [insert, if_pos hlt]
    · rw [insert, if_neg hlt, if_neg hne]
      exact ((ih hrest).cons (k, v)).trans (.swap _ _ _)

theorem perm_foldl_insert {entries : List (String × α)} {d : Dict α}
    (h : (entries.map Prod.fst ++ d.keys).Nodup) :
    (entries.foldl (fun d (k, v) => Dict.insert k v d) d).Perm (entries ++ d) := by
  induction entries generalizing d with
  | nil => exact .refl _
  | cons e rest ih =>
    obtain ⟨k, v⟩ := e
    obtain ⟨hnew, hnodup⟩ := List.nodup_cons.1 h
    have hinsert := perm_insert (fun hmem => hnew (List.mem_append_right _ hmem)) v
    have hkeys : (rest.map Prod.fst ++ (Dict.insert k v d).keys).Perm
        (k :: (rest.map Prod.fst ++ d.keys)) :=
      ((hinsert.map Prod.fst).append_left _).trans List.perm_middle
    exact (ih (hkeys.nodup_iff.2 h)).trans ((hinsert.append_left rest).trans List.perm_middle)

theorem perm_ofEntries {entries : List (String × α)} (h : (entries.map Prod.fst).Nodup) :
    (ofEntries entries).Perm entries := by
  have hfold := perm_foldl_insert (d := []) (show (entries.map Prod.fst ++ []).Nodup by simpa using h)
  rwa [List.append_nil] at hfold

theorem sorted_ofEntries (entries : List (String × α)) : (ofEntries entries).Sorted := by
  have hfold (d : Dict α) (hd : d.Sorted) :
      Sorted (entries.foldl (fun d (k, v) => Dict.insert k v d) d) := by
    induction entries generalizing d with
    | nil => exact hd
    | cons e rest ih => exact ih _ (hd.insert e.1 e.2)
  exact hfold [] sorted_nil

/-- **A dictionary does not depend on the order in which its entries are listed.** -/
theorem ofEntries_congr {entries others : List (String × α)} (h : entries.Perm others)
    (hkeys : (entries.map Prod.fst).Nodup) : ofEntries entries = ofEntries others := by
  have hkeys' := ((h.map Prod.fst).nodup_iff).1 hkeys
  refine List.Perm.eq_of_pairwise (fun a b _ _ hab hba => ?_) (sorted_ofEntries entries)
    (sorted_ofEntries others) ((perm_ofEntries hkeys).trans (h.trans (perm_ofEntries hkeys').symm))
  exact absurd (String.lt_trans hab hba) (String.lt_irrefl a.1)

end Dict
end RemoteCall
