import RemoteCall.Balance.Ring
import Mathlib.Data.List.Flatten
import Mathlib.Data.List.Perm.Basic

/-! What moves on the ring when candidates come and go.

The ring is asked for the place that is nearest to a point going round, of several there the last
(`Nearest`). Other places than that one can be taken away without changing the answer
(`Nearest.of_sublist`), and where no point is shared the answer does not depend on the order in
which the places are given (`Nearest.unique`). A candidate has the same points whoever else there
is, so what holds of places holds of candidates: `selectBy_moves` says that a call goes to another
instance only if its own is gone or the new one is the one that came. -/
namespace RemoteCall.Balance.Ring

variable {start : UInt64} {all rest others : List (UInt64 × Instance)} {p q : UInt64 × Instance}

/-! ### Going round -/

/-- Points from the start on are nearer than points before it, and on either side the lesser are
nearer. -/
theorem distance_lt_iff (start a b : UInt64) :
    distance start a < distance start b ↔
      (start ≤ a ∧ b < start) ∨ (a < b ∧ (start ≤ a ↔ start ≤ b)) := by
  have ha := a.toNat_lt
  have hb := b.toNat_lt
  have hs := start.toNat_lt
  simp only [distance, UInt64.lt_iff_toNat_lt, UInt64.le_iff_toNat_le, UInt64.toNat_sub]
  omega

theorem distance_inj {a b : UInt64} (h : distance start a = distance start b) : a = b :=
  (UInt64.sub_left_inj start).1 h

/-! ### The nearest place -/

/-- The nearest of some places from a point on, of several the last. -/
structure Nearest (start : UInt64) (all : List (UInt64 × Instance)) (p : UInt64 × Instance) :
    Prop where
  split : ∃ early late, all = early ++ p :: late ∧
    (∀ q ∈ early, distance start p.1 ≤ distance start q.1) ∧
    ∀ q ∈ late, distance start p.1 < distance start q.1

theorem Nearest.mem (h : Nearest start all p) : p ∈ all := by
  obtain ⟨early, late, rfl, -, -⟩ := h.split
  exact List.mem_append_right early List.mem_cons_self

theorem Nearest.le (h : Nearest start all p) (hq : q ∈ all) :
    distance start p.1 ≤ distance start q.1 := by
  obtain ⟨early, late, rfl, hearly, hlate⟩ := h.split
  rcases List.mem_append.1 hq with hq | hq
  · exact hearly q hq
  · rcases List.mem_cons.1 hq with rfl | hq
    · exact UInt64.le_refl _
    · exact UInt64.le_of_lt (hlate q hq)

/-- The nearest place is the first from the start on, or the first of all if there is none from
there on. -/
theorem Nearest.first (h : Nearest start all p) (hq : q ∈ all) :
    (start ≤ q.1 → start ≤ p.1 ∧ p.1 ≤ q.1) ∧ (p.1 < start → p.1 ≤ q.1) := by
  have hle := UInt64.not_lt.2 (h.le hq)
  rw [distance_lt_iff] at hle
  simp only [UInt64.lt_iff_toNat_lt, UInt64.le_iff_toNat_le] at hle ⊢
  omega

theorem nearest_nearest (start : UInt64) (h : all ≠ []) :
    ∃ p, nearest start all = some p ∧ Nearest start all p := by
  induction all with
  | nil => exact absurd rfl h
  | cons place rest ih =>
    rw [nearest]
    by_cases hrest : rest = []
    · subst hrest
      exact ⟨place, rfl, ⟨[], [], rfl, nofun, nofun⟩⟩
    · obtain ⟨best, hbest, hnearest⟩ := ih hrest
      rw [hbest]
      dsimp only
      split
      · next hlt =>
        exact ⟨place, rfl, ⟨[], rest, rfl, nofun, fun q hq =>
          UInt64.lt_of_lt_of_le hlt (hnearest.le hq)⟩⟩
      · next hge =>
        obtain ⟨early, late, rfl, hearly, hlate⟩ := hnearest.split
        refine ⟨best, rfl, ⟨place :: early, late, rfl, fun q hq => ?_, hlate⟩⟩
        rcases List.mem_cons.1 hq with rfl | hq
        · exact UInt64.not_lt.1 hge
        · exact hearly q hq

theorem Nearest.eq_some (h : Nearest start all p) : nearest start all = some p := by
  obtain ⟨early, late, rfl, hearly, hlate⟩ := h.split
  induction early with
  | nil =>
    show nearest start (p :: late) = some p
    rw [nearest]
    by_cases hnone : late = []
    · rw [hnone, nearest]
    · obtain ⟨best, hbest, hnearest⟩ := nearest_nearest start hnone
      rw [hbest]
      exact if_pos (hlate best hnearest.mem)
  | cons place early ih =>
    obtain ⟨hplace, hearly⟩ := List.forall_mem_cons.1 hearly
    have hrest := ih ⟨early, late, rfl, hearly, hlate⟩ hearly
    rw [List.cons_append, nearest, hrest]
    exact if_neg (UInt64.not_lt.2 hplace)

/-- **What is nearest stays so when other places are taken away**, whatever kind of places is
kept. -/
theorem Nearest.of_sublist (h : Nearest start all p) (hrest : rest.Sublist all)
    {kept : UInt64 × Instance → Bool} (hp : kept p = true)
    (hkept : rest.countP kept = all.countP kept) : Nearest start rest p := by
  obtain ⟨early, late, rfl, hearly, hlate⟩ := h.split
  obtain ⟨early', tail, rfl, hsub, htail⟩ := List.sublist_append_iff.1 hrest
  rcases List.sublist_cons_iff.1 htail with hlost | ⟨late', rfl, hlate'⟩
  · -- Without `p` there would be one place of its kind less.
    have hfront := hsub.countP_le (p := kept)
    have hback := hlost.countP_le (p := kept)
    rw [List.countP_append, List.countP_append, List.countP_cons_of_pos hp] at hkept
    omega
  · exact ⟨early', late', rfl, fun q hq => hearly q (hsub.subset hq),
      fun q hq => hlate q (hlate'.subset hq)⟩

/-- Where no two places share a point, the nearest does not depend on their order. -/
theorem Nearest.perm (h : Nearest start all p) (hperm : others.Perm all)
    (happart : ∀ a ∈ all, ∀ b ∈ all, a.1 = b.1 → a = b) : nearest start others = some p := by
  have hne : others ≠ [] := by
    rintro rfl
    exact List.not_mem_nil (hperm.mem_iff.2 h.mem)
  obtain ⟨q, hq, hnearest⟩ := nearest_nearest start hne
  have hmem := hperm.mem_iff.1 hnearest.mem
  have hsame := UInt64.le_antisymm (h.le hmem) (hnearest.le (hperm.mem_iff.2 h.mem))
  rw [hq, happart p h.mem q hmem (distance_inj hsame)]

/-! ### Candidates -/

variable {hash : Bytes → UInt64} {virtualNodes : Nat} {candidates : List Instance} {i x : Instance}

theorem mem_places {point : UInt64} :
    (point, i) ∈ places hash virtualNodes candidates ↔
      i ∈ candidates ∧ point ∈ pointsOf hash virtualNodes i := by
  simp only [places, List.mem_flatMap, List.mem_map, Prod.mk.injEq]
  constructor
  · rintro ⟨j, hj, point', hpoint, rfl, rfl⟩
    exact ⟨hj, hpoint⟩
  · rintro ⟨hi, hpoint⟩
    exact ⟨i, hi, point, hpoint, rfl, rfl⟩

theorem places_ne_nil (hash : Bytes → UInt64) (virtualNodes : Nat) (h : candidates ≠ []) :
    places hash (max virtualNodes 1) candidates ≠ [] := by
  obtain ⟨i, hi⟩ := List.exists_mem_of_ne_nil _ h
  refine List.ne_nil_of_mem (a := (hash (Utf8.encode s!"{i.address}#{0}"), i))
    (mem_places.2 ⟨hi, List.mem_map.2 ⟨0, List.mem_range.2 ?_, rfl⟩⟩)
  exact Nat.lt_of_lt_of_le Nat.one_pos (Nat.le_max_right _ _)

/-- A candidate has the same number of places whoever else there is. -/
theorem countP_places (hash : Bytes → UInt64) (virtualNodes : Nat) (x : Instance)
    (candidates : List Instance) :
    (places hash virtualNodes candidates).countP (·.2 = x) = candidates.count x * virtualNodes := by
  induction candidates with
  | nil => simp [places]
  | cons i rest ih =>
    have hfirst : ((pointsOf hash virtualNodes i).map fun point => (point, i)).countP (·.2 = x) =
        if i = x then virtualNodes else 0 := by
      rw [List.countP_map]
      split <;> simp [Function.comp_def, pointsOf, *]
    show List.countP _ (_ ++ places hash virtualNodes rest) = _
    rw [List.countP_append, ih, hfirst, List.count_cons, Nat.add_mul, Nat.add_comm]
    simp only [beq_iff_eq]
    split <;> simp

/-- The point of some parameters. -/
def pointOf (hash : Bytes → UInt64) (params : List (String × String)) : UInt64 :=
  hash (Utf8.encode (canonical params))

/-- A single candidate is what the ring would give as well. -/
theorem selectBy_eq (hash : Bytes → UInt64) (virtualNodes : Nat) (params : List (String × String))
    (candidates : List Instance) :
    selectBy hash virtualNodes params candidates =
      (nearest (pointOf hash params) (places hash (max virtualNodes 1) candidates)).map Prod.snd := by
  match candidates with
  | [] => rfl
  | [only] =>
    obtain ⟨⟨point, i⟩, hi, hnearest⟩ :=
      nearest_nearest (pointOf hash params) (places_ne_nil hash virtualNodes (List.cons_ne_nil only []))
    obtain ⟨hmem, -⟩ := mem_places.1 hnearest.mem
    rw [hi, List.mem_singleton.1 hmem]
    rfl
  | _ :: _ :: _ => rfl

/-! ### Selections -/

variable {params : List (String × String)}

theorem exists_selectBy (hash : Bytes → UInt64) (virtualNodes : Nat)
    (params : List (String × String)) (h : candidates ≠ []) :
    ∃ x ∈ candidates, selectBy hash virtualNodes params candidates = some x := by
  obtain ⟨⟨point, x⟩, hx, hnearest⟩ :=
    nearest_nearest (pointOf hash params) (places_ne_nil hash virtualNodes h)
  obtain ⟨hmem, -⟩ := mem_places.1 hnearest.mem
  exact ⟨x, hmem, by rw [selectBy_eq, hx, Option.map_some]⟩

/-- A selected candidate has the place that is the nearest. -/
theorem nearest_of_selectBy (h : selectBy hash virtualNodes params candidates = some x) :
    ∃ point, Nearest (pointOf hash params) (places hash (max virtualNodes 1) candidates)
      (point, x) := by
  rw [selectBy_eq] at h
  obtain ⟨⟨point, i⟩, hi, rfl⟩ := Option.map_eq_some_iff.1 h
  have hne : places hash (max virtualNodes 1) candidates ≠ [] := by
    intro hnil
    rw [hnil] at hi
    cases hi
  obtain ⟨p, hp, hnearest⟩ := nearest_nearest (pointOf hash params) hne
  obtain rfl := Option.some.inj (hi.symm.trans hp)
  exact ⟨point, hnearest⟩

/-- **Nothing moves when others go away.** -/
theorem selectBy_of_sublist (h : selectBy hash virtualNodes params candidates = some x)
    {rest : List Instance} (hrest : rest.Sublist candidates)
    (hx : rest.count x = candidates.count x) :
    selectBy hash virtualNodes params rest = some x := by
  obtain ⟨point, hnearest⟩ := nearest_of_selectBy h
  have hcount : (places hash (max virtualNodes 1) rest).countP (·.2 = x) =
      (places hash (max virtualNodes 1) candidates).countP (·.2 = x) := by
    rw [countP_places, countP_places, hx]
  have hkept : Nearest _ (places hash (max virtualNodes 1) rest) (point, x) :=
    hnearest.of_sublist (hrest.flatMap _) (decide_eq_true rfl) hcount
  rw [selectBy_eq, hkept.eq_some, Option.map_some]

/-- One that comes is selected, or nothing moves. -/
theorem selectBy_insert {early late : List Instance}
    (h : selectBy hash virtualNodes params (early ++ late) = some x) (new : Instance) :
    selectBy hash virtualNodes params (early ++ new :: late) = some new ∨
      selectBy hash virtualNodes params (early ++ new :: late) = some x := by
  obtain ⟨y, -, hy⟩ := exists_selectBy hash virtualNodes params
    (List.append_ne_nil_of_right_ne_nil early (List.cons_ne_nil new late))
  by_cases hnew : new = y
  · exact .inl (hnew ▸ hy)
  · refine .inr ?_
    have hbefore := selectBy_of_sublist hy ((List.sublist_cons_self new late).append_left early)
      (by rw [List.count_append, List.count_append, List.count_cons_of_ne hnew])
    rw [hy, Option.some.inj (hbefore.symm.trans h)]

/-- Whether no two different candidates share a point. -/
def Apart (hash : Bytes → UInt64) (virtualNodes : Nat) (candidates : List Instance) : Prop :=
  ∀ i ∈ candidates, ∀ j ∈ candidates, i ≠ j →
    ∀ point ∈ pointsOf hash (max virtualNodes 1) i, point ∉ pointsOf hash (max virtualNodes 1) j

-- Only the points of the list are tried, and not all that there are.
instance decidableNoneOf (points others : List UInt64) :
    Decidable (∀ point ∈ points, point ∉ others) :=
  List.decidableBAll (fun point => point ∉ others) points

instance (hash : Bytes → UInt64) (virtualNodes : Nat) (candidates : List Instance) :
    Decidable (Apart hash virtualNodes candidates) :=
  inferInstanceAs (Decidable (∀ i ∈ candidates, ∀ j ∈ candidates, i ≠ j →
    ∀ point ∈ pointsOf hash (max virtualNodes 1) i, point ∉ pointsOf hash (max virtualNodes 1) j))

theorem Apart.places (h : Apart hash virtualNodes candidates) :
    ∀ a ∈ places hash (max virtualNodes 1) candidates,
      ∀ b ∈ places hash (max virtualNodes 1) candidates, a.1 = b.1 → a = b := by
  rintro ⟨point, i⟩ hi ⟨point', j⟩ hj hpoint
  obtain rfl : point = point' := hpoint
  obtain ⟨hi, hpi⟩ := mem_places.1 hi
  obtain ⟨hj, hpj⟩ := mem_places.1 hj
  have hsame : i = j := by
    by_contra hne
    exact h i hi j hj hne point hpi hpj
  rw [hsame]

/-- Candidates that are apart may stand in any order. -/
theorem selectBy_perm (h : selectBy hash virtualNodes params candidates = some x)
    (hapart : Apart hash virtualNodes candidates) {others : List Instance}
    (hperm : others.Perm candidates) : selectBy hash virtualNodes params others = some x := by
  obtain ⟨point, hnearest⟩ := nearest_of_selectBy h
  have hplaces : nearest (pointOf hash params) (places hash (max virtualNodes 1) others) =
      some (point, x) := hnearest.perm (hperm.flatMap_right _) hapart.places
  rw [selectBy_eq, hplaces, Option.map_some]

/-- Parameters may be listed in any order. -/
theorem selectBy_congr (hash : Bytes → UInt64) (virtualNodes : Nat)
    {listed : List (String × String)} (h : listed.Perm params)
    (hnames : (params.map Prod.fst).Nodup) (candidates : List Instance) :
    selectBy hash virtualNodes listed candidates = selectBy hash virtualNodes params candidates := by
  have hpoint : pointOf hash listed = pointOf hash params := by
    rw [pointOf, canonical, Dict.ofEntries_congr h ((h.map Prod.fst).nodup_iff.2 hnames)]
    rfl
  rw [selectBy_eq, selectBy_eq, hpoint]

/-- **Only what has to move moves.** With whatever hash and however the parameters are listed, one
of the candidates is selected. It stays so when others go away; when one more comes it is that one
or the same as before; and unless two candidates share a point, their order does not matter. -/
theorem selectBy_moves (hash : Bytes → UInt64) (virtualNodes : Nat)
    (hnames : (params.map Prod.fst).Nodup) (hsome : candidates ≠ []) :
    ∃ x ∈ candidates, ∀ listed : List (String × String), listed.Perm params →
      selectBy hash virtualNodes listed candidates = some x ∧
      (∀ rest : List Instance, rest.Sublist candidates → rest.count x = candidates.count x →
        selectBy hash virtualNodes listed rest = some x) ∧
      (∀ early late new, candidates = early ++ late →
        selectBy hash virtualNodes listed (early ++ new :: late) = some new ∨
          selectBy hash virtualNodes listed (early ++ new :: late) = some x) ∧
      (Apart hash virtualNodes candidates → ∀ others : List Instance, others.Perm candidates →
        selectBy hash virtualNodes listed others = some x) := by
  obtain ⟨x, hmem, hx⟩ := exists_selectBy hash virtualNodes params hsome
  refine ⟨x, hmem, fun listed hlisted => ?_⟩
  have hselect : selectBy hash virtualNodes listed candidates = some x :=
    (selectBy_congr hash virtualNodes hlisted hnames candidates).trans hx
  refine ⟨hselect, fun rest => selectBy_of_sublist hselect, ?_, fun hapart _ =>
    selectBy_perm hselect hapart⟩
  rintro early late new rfl
  exact selectBy_insert hselect new

/-- An instance of which only the host matters. -/
def host (name : String) : Instance := { name := "Printer", host := name, port := 1 }

/-- A hash that counts: the point of the parameters lies behind all points of the candidates, so
the search goes round to the first of them. -/
theorem selectBy_moves_around :
    let hash : Bytes → UInt64 := fun b => UInt64.ofNat b.length
    let params := [("method", "print"), ("color", "red")]
    let candidates := [host "ccc", host "a", host "bb"]
    (params.map Prod.fst).Nodup ∧ candidates ≠ [] ∧ Apart hash 0 candidates ∧
      ∀ listed : List (String × String), listed.Perm params →
        (∀ others : List Instance, others.Perm candidates →
          selectBy hash 0 listed others = some (host "a")) ∧
        selectBy hash 0 listed [host "a", host "bb"] = some (host "a") := by
  intro hash params candidates
  have hnames : (params.map Prod.fst).Nodup := by decide
  have hsome : candidates ≠ [] := List.cons_ne_nil _ _
  have hapart : Apart hash 0 candidates := by decide +kernel
  have hfirst : selectBy hash 0 params candidates = some (host "a") := by decide +kernel
  obtain ⟨x, -, hmoves⟩ := selectBy_moves hash 0 hnames hsome
  obtain rfl := Option.some.inj ((hmoves params (.refl _)).1.symm.trans hfirst)
  refine ⟨hnames, hsome, hapart, fun listed hlisted => ?_⟩
  obtain ⟨-, hrest, -, hperm⟩ := hmoves listed hlisted
  exact ⟨hperm hapart, hrest _ (List.sublist_cons_self _ _) (by decide)⟩

end RemoteCall.Balance.Ring
