import Mathlib.Algebra.Group.Nat.Defs
import RemoteCall.Columnar.Pack

/-! Columns of integers are read back.

How a column is written depends on what is in it: how many values share a byte, to how many bytes
a value is cut down, and whether all of them stand relative to the least. The reader is told by
the mark, and whichever way was taken it finds the same numbers. A number is found as far as the
width of the column can hold it (`wrap`), so a negative one is found as its two's complement.
`unpackBytes_packBytes` holds of any integers, `unpackInts_packInts` of those below what the width
can hold, and `unpackLengths_packLengths` gives lengths back as they were. -/
namespace RemoteCall.Columnar

/-! ### Digits -/

theorem length_digits (base count n : Nat) : (digits base count n).length = count := by
  induction count generalizing n with
  | zero => rfl
  | succ count ih => rw [digits, List.length_cons, ih]

theorem ofDigits_lt {base : Nat} {ds : List Nat} (h : ∀ x ∈ ds, x < base) :
    ofDigits base ds < base ^ ds.length := by
  induction ds with
  | nil => exact Nat.one_pos
  | cons d ds ih =>
    have hd : d < base := h d List.mem_cons_self
    have hrest := ih fun x hx => h x (List.mem_cons_of_mem _ hx)
    have hstep : base * ofDigits base ds + base ≤ base * base ^ ds.length := by
      rw [← Nat.mul_succ]
      exact Nat.mul_le_mul_left base hrest
    rw [ofDigits, List.length_cons, Nat.pow_succ, Nat.mul_comm (base ^ ds.length)]
    omega

/-- Digits are read back from the number that they make. -/
theorem take_digits {base count : Nat} {ds : List Nat} (h : ∀ x ∈ ds, x < base)
    (hcount : ds.length ≤ count) : (digits base count (ofDigits base ds)).take ds.length = ds := by
  induction ds generalizing count with
  | nil => exact List.take_zero
  | cons d ds ih =>
    cases count with
    | zero => cases hcount
    | succ count =>
      have hd : d < base := h d List.mem_cons_self
      have hfirst : (d + base * ofDigits base ds) % base = d := by
        rw [Nat.add_mul_mod_self_left, Nat.mod_eq_of_lt hd]
      have hothers : (d + base * ofDigits base ds) / base = ofDigits base ds := by
        rw [Nat.add_mul_div_left _ _ (Nat.zero_lt_of_lt hd), Nat.div_eq_of_lt hd, Nat.zero_add]
      rw [ofDigits, digits, List.length_cons, List.take_succ_cons, hfirst, hothers,
        ih (fun x hx => h x (List.mem_cons_of_mem _ hx)) (Nat.le_of_succ_le_succ hcount)]

/-- Whether a byte can hold as many digits as it is to. -/
structure Density.Sound (d : Density) : Prop where
  perByte_pos : 0 < d.perByte
  states_pos : 0 < d.states
  fits : d.states ^ d.perByte ≤ 256

variable {d : Density} {ds : List Nat}

theorem packDigits_nil (d : Density) : packDigits d [] = [] := by
  rw [packDigits, dif_pos (.inl rfl)]

theorem packDigits_of_ne (hd : d.Sound) (h : ds ≠ []) :
    packDigits d ds =
      UInt8.ofNat (ofDigits d.states (ds.take d.perByte)) :: packDigits d (ds.drop d.perByte) := by
  rw [packDigits, dif_neg]
  rintro (hnil | hzero)
  · exact h hnil
  · exact Nat.ne_of_gt hd.perByte_pos hzero

/-- Every further byte's worth of digits takes one byte more. -/
theorem Density.bytesFor_of_pos (hd : d.Sound) {n : Nat} (h : 0 < n) :
    d.bytesFor n = d.bytesFor (n - d.perByte) + 1 := by
  have hpos := hd.perByte_pos
  rw [bytesFor, bytesFor, ← Nat.add_div_right _ hpos]
  by_cases hlast : n ≤ d.perByte
  · rw [Nat.sub_eq_zero_of_le hlast, Nat.zero_add]
    rw [Nat.div_eq_of_lt_le (k := 1), Nat.div_eq_of_lt_le (k := 1)] <;> omega
  · congr 1
    omega

theorem length_packDigits (hd : d.Sound) (ds : List Nat) :
    (packDigits d ds).length = d.bytesFor ds.length := by
  induction ds using packDigits.induct d with
  | case1 ds h =>
    obtain rfl : ds = [] := h.resolve_right (Nat.ne_of_gt hd.perByte_pos)
    have := hd.perByte_pos
    have hnone : ([] : List Nat).length + d.perByte - 1 < d.perByte := by
      rw [List.length_nil]
      omega
    rw [packDigits_nil, Density.bytesFor, Nat.div_eq_of_lt hnone, List.length_nil]
  | case2 ds h ih =>
    have hne : ds ≠ [] := fun hnil => h (.inl hnil)
    rw [packDigits_of_ne hd hne, List.length_cons, ih, List.length_drop,
      Density.bytesFor_of_pos hd (List.length_pos_iff.2 hne)]

/-- Nothing is lost when digits are put into a byte. -/
theorem toNat_packed (hd : d.Sound) (h : ∀ x ∈ ds, x < d.states) (hlen : ds.length ≤ d.perByte) :
    (UInt8.ofNat (ofDigits d.states ds)).toNat = ofDigits d.states ds := by
  have hbyte : ofDigits d.states ds < 256 :=
    Nat.lt_of_lt_of_le (ofDigits_lt h)
      (Nat.le_trans (Nat.pow_le_pow_right hd.states_pos hlen) hd.fits)
  rw [UInt8.toNat_ofNat', Nat.mod_eq_of_lt hbyte]

theorem take_digits_packDigits (hd : d.Sound) (h : ∀ x ∈ ds, x < d.states) :
    ((packDigits d ds).flatMap fun x => digits d.states d.perByte x.toNat).take ds.length = ds := by
  induction ds using packDigits.induct d with
  | case1 ds hend =>
    obtain rfl : ds = [] := hend.resolve_right (Nat.ne_of_gt hd.perByte_pos)
    exact List.take_zero
  | case2 ds hgo ih =>
    have hfirst (x : Nat) (hx : x ∈ ds.take d.perByte) : x < d.states :=
      h x (List.mem_of_mem_take hx)
    have hlen : (ds.take d.perByte).length ≤ d.perByte := List.length_take_le _ _
    have hbyte := take_digits hfirst hlen
    rw [packDigits_of_ne hd fun hnil => hgo (.inl hnil), List.flatMap_cons,
      toNat_packed hd hfirst hlen, List.take_append, length_digits]
    -- The last byte may have room for more digits than there are.
    have hcut : (digits d.states d.perByte (ofDigits d.states (ds.take d.perByte))).take ds.length =
        ds.take d.perByte := by
      refine Eq.trans (List.take_eq_take_iff.2 ?_) hbyte
      rw [length_digits, List.length_take]
      omega
    have hothers := ih fun x hx => h x (List.mem_of_mem_drop hx)
    rw [List.length_drop] at hothers
    rw [hcut, hothers, List.take_append_drop]

theorem unpackDigits_packDigits (hd : d.Sound) (h : ∀ x ∈ ds, x < d.states) (rest : Bytes) :
    unpackDigits d ds.length (packDigits d ds ++ rest) = some (ds, rest) := by
  have hsplit := Bytes.split?_append (packDigits d ds) rest
  rw [length_packDigits hd] at hsplit
  simp only [unpackDigits, hsplit, bind, Option.bind, take_digits_packDigits hd h]

/-! ### Extremes and marks -/

theorem le_greatest {xs : List Int} {x : Int} (h : x ∈ xs) : x ≤ greatest xs := by
  cases xs with
  | nil => cases h
  | cons y ys => exact (List.max?_eq_some_iff.1 List.max?_cons').2 x h

theorem least_le {xs : List Int} {x : Int} (h : x ∈ xs) : least xs ≤ x := by
  cases xs with
  | nil => cases h
  | cons y ys => exact (List.min?_eq_some_iff.1 List.min?_cons').2 x h

theorem greatest_mem {xs : List Int} (h : xs ≠ []) : greatest xs ∈ xs := by
  cases xs with
  | nil => exact absurd rfl h
  | cons y ys => exact (List.max?_eq_some_iff.1 List.max?_cons').1

theorem unmark_mark (relative : Bool) {code : Nat} (hcode : code < 128)
    (hpos : relative = true → 0 < code) : unmark (mark relative code) = (code, relative) := by
  cases relative with
  | false =>
    have hbyte : (mark false code).toNat = 2 * code :=
      Nat.mod_eq_of_lt (show 2 * code < 256 by omega)
    have heven : ¬2 * code % 2 = 1 := by omega
    rw [unmark, hbyte, decide_eq_false heven]
    congr 1
    omega
  | true =>
    have hfirst := hpos rfl
    have hbyte : (mark true code).toNat = 2 * code - 1 :=
      Nat.mod_eq_of_lt (show 2 * code - 1 < 256 by omega)
    have hodd : (2 * code - 1) % 2 = 1 := by omega
    rw [unmark, hbyte, decide_eq_true hodd]
    congr 1
    omega

/-! ### Numbers of a width -/

/-- The number of `size` bytes that an integer is written as. -/
def wrap (size : Nat) (x : Int) : Nat := (x % Bytes.capacity size).toNat

theorem capacity_pos (size : Nat) : 0 < Bytes.capacity size := Nat.pow_pos (by decide)

variable {size : Nat} {x : Int} {xs : List Int}

theorem natCast_wrap (size : Nat) (x : Int) : (wrap size x : Int) = x % Bytes.capacity size :=
  Int.toNat_of_nonneg (Int.emod_nonneg x (Int.ne_of_gt (Int.natCast_pos.2 (capacity_pos size))))

theorem wrap_lt (size : Nat) (x : Int) : wrap size x < Bytes.capacity size := by
  refine Int.ofNat_lt.1 ?_
  rw [natCast_wrap]
  exact Int.emod_lt_of_pos x (Int.natCast_pos.2 (capacity_pos size))

/-- What is written relative to the least value, and that value, make up the number. -/
theorem wrap_add_wrap_sub (size : Nat) (x low : Int) :
    (wrap size low + wrap size (x - low)) % Bytes.capacity size = wrap size x := by
  refine Int.natCast_inj.1 ?_
  rw [Int.natCast_emod, Int.natCast_add, natCast_wrap, natCast_wrap, natCast_wrap, ← Int.add_emod,
    Int.add_comm low, Int.sub_add_cancel]

theorem zero_add_wrap (size : Nat) (x : Int) :
    (0 + wrap size x) % Bytes.capacity size = wrap size x := by
  rw [Nat.zero_add, Nat.mod_eq_of_lt (wrap_lt size x)]

theorem wrap_of_lt (hx : 0 ≤ x) (h : x < Bytes.capacity size) : wrap size x = x.toNat := by
  rw [wrap, Int.emod_eq_of_lt hx h]

/-- A number that few bytes can hold is the same in more of them. -/
theorem mod_wrap {part : Nat} (hx : 0 ≤ x) (h : x < Bytes.capacity part) :
    wrap part x % Bytes.capacity size = wrap size x := by
  refine Int.natCast_inj.1 ?_
  rw [Int.natCast_emod, wrap_of_lt hx h, Int.toNat_of_nonneg hx, natCast_wrap]

/-! ### Columns of bytes -/

theorem Density.sound (h : d ∈ densities) : d.Sound := by
  have hall : ∀ d ∈ densities, 0 < d.perByte ∧ 0 < d.states ∧ d.states ^ d.perByte ≤ 256 := by
    decide
  obtain ⟨hper, hstates, hfits⟩ := hall d h
  exact ⟨hper, hstates, hfits⟩

/-- Whether the density of a code has room for every number of a column. -/
def Holds (code : Nat) (xs : List Int) : Prop :=
  ∃ d, densities[code]? = some d ∧ ∀ x ∈ xs, wrap 1 x < d.states

theorem holds_zero (xs : List Int) : Holds 0 xs := ⟨⟨256, 1⟩, rfl, fun x _ => wrap_lt 1 x⟩

theorem holds_densityCode {max : Int} (h : ∀ x ∈ xs, 0 ≤ x ∧ x ≤ max) :
    Holds (densityCode max) xs := by
  have hroom (code states perByte : Nat) (hcode : densities[code]? = some ⟨states, perByte⟩)
      (hstates : states ≤ 256) (hmax : max < states) : Holds code xs := by
    refine ⟨_, hcode, fun x hx => ?_⟩
    obtain ⟨hpos, hle⟩ := h x hx
    have hbyte : wrap 1 x = x.toNat := wrap_of_lt hpos (show x < 256 by omega)
    show wrap 1 x < states
    omega
  unfold densityCode
  split
  · exact hroom 5 2 8 rfl (by decide) (by omega)
  · split
    · exact hroom 4 3 5 rfl (by decide) (by omega)
    · split
      · exact hroom 3 4 4 rfl (by decide) (by omega)
      · split
        · exact hroom 2 6 3 rfl (by decide) (by omega)
        · split
          · exact hroom 1 16 2 rfl (by decide) (by omega)
          · exact holds_zero xs

theorem Holds.code_lt {code : Nat} (h : Holds code xs) : code < 128 := by
  obtain ⟨d, hd, -⟩ := h
  have hlen : code < densities.length := (List.getElem?_eq_some_iff.1 hd).1
  exact Nat.lt_trans hlen (by decide)

/-- A column is read back with the density that it was written with. -/
theorem Holds.unpackDigits_packWith {code : Nat} (h : Holds code xs) (rest : Bytes) :
    ∃ d, densities[code]? = some d ∧
      unpackDigits d xs.length (packWith code xs ++ rest) = some (xs.map (wrap 1), rest) := by
  obtain ⟨d, hd, hroom⟩ := h
  have hsound := Density.sound (List.mem_of_getElem? hd)
  have hdigits : ∀ n ∈ xs.map (wrap 1), n < d.states := by
    intro n hn
    obtain ⟨x, hx, rfl⟩ := List.mem_map.1 hn
    exact hroom x hx
  have hread := unpackDigits_packDigits hsound hdigits rest
  rw [List.length_map] at hread
  refine ⟨d, hd, ?_⟩
  rw [packWith, hd]
  exact hread

theorem toNat_rawByte (x : Int) : (rawByte x).toNat = wrap 1 x := by
  have hlt := wrap_lt 1 x
  rw [rawByte, UInt8.toNat_ofNat']
  exact Nat.mod_eq_of_lt hlt

/-- What a longer column is written as: as it stands, or relative to its least value. -/
theorem packBytes_cases (h : unmarked < xs.length) :
    (∃ code, Holds code xs ∧ packBytes xs = mark false code :: packWith code xs) ∨
    ∃ code, 0 < code ∧ Holds code (xs.map (· - least xs)) ∧
      packBytes xs = mark true code :: rawByte (least xs) ::
        packWith code (xs.map (· - least xs)) := by
  have hplain : Holds (if least xs < 0 then 0 else densityCode (greatest xs)) xs := by
    split
    · exact holds_zero xs
    · next hpos =>
      refine holds_densityCode fun x hx => ⟨?_, le_greatest hx⟩
      have := least_le hx
      omega
  have hrelative : Holds (densityCode (greatest xs - least xs)) (xs.map (· - least xs)) := by
    refine holds_densityCode fun y hy => ?_
    obtain ⟨x, hx, rfl⟩ := List.mem_map.1 hy
    have := least_le hx
    have := le_greatest hx
    omega
  by_cases hsaves : (if least xs < 0 then 0 else densityCode (greatest xs)) <
      densityCode (greatest xs - least xs) ∧ shortColumn < xs.length
  · refine .inr ⟨_, Nat.lt_of_le_of_lt (Nat.zero_le _) hsaves.1, hrelative, ?_⟩
    rw [packBytes, if_neg (Nat.not_le.2 h)]
    exact if_pos hsaves
  · refine .inl ⟨_, hplain, ?_⟩
    rw [packBytes, if_neg (Nat.not_le.2 h)]
    exact if_neg hsaves

theorem unpackBytes_marked {n : Nat} (hn : unmarked < n) {code : Nat} {relative : Bool}
    (hmark : unmark m = (code, relative)) {d : Density} (hd : densities[code]? = some d)
    {b after rest : Bytes} {base : Nat} (hbase : unpackBase 1 relative b = some (base, after))
    {ds : List Nat} (hds : unpackDigits d n after = some (ds, rest)) :
    unpackBytes n (m :: b) = some (ds.map fun x => (base + x) % 256, rest) := by
  rw [unpackBytes.eq_def, if_neg (Nat.not_le.2 hn)]
  simp only [hmark, hd, hbase, hds, bind, Option.bind]

/-- The least value is read back. -/
theorem unpackBase_append {w : Bytes} (hw : w.length = size) (b : Bytes) :
    unpackBase size true (w ++ b) = some (Bytes.toNatLE w, b) := by
  subst hw
  rw [unpackBase, if_pos rfl, Bytes.split?_append, Option.map_some]

theorem unpackBase_rawByte (low : Int) (b : Bytes) :
    unpackBase 1 true (rawByte low :: b) = some (wrap 1 low, b) := by
  have hread := unpackBase_append (List.length_singleton (a := rawByte low)) b
  rwa [List.singleton_append, Bytes.toNatLE, Bytes.toNatLE, toNat_rawByte] at hread

/-- **A column of bytes is read back**, and what follows it is left. -/
theorem unpackBytes_packBytes (xs : List Int) (rest : Bytes) :
    unpackBytes xs.length (packBytes xs ++ rest) = some (xs.map (wrap 1), rest) := by
  by_cases hshort : xs.length ≤ unmarked
  · have hraw : (xs.map rawByte).map UInt8.toNat = xs.map (wrap 1) := by
      rw [List.map_map]
      exact List.map_congr_left fun x _ => toNat_rawByte x
    have hsplit := Bytes.split?_append (xs.map rawByte) rest
    rw [List.length_map] at hsplit
    rw [packBytes, unpackBytes.eq_def, if_pos hshort, if_pos hshort, hsplit, ← hraw]
    rfl
  · have hlong := Nat.lt_of_not_le hshort
    obtain ⟨code, hholds, hpacked⟩ | ⟨code, hpos, hholds, hpacked⟩ := packBytes_cases hlong
    · obtain ⟨d, hd, hread⟩ := hholds.unpackDigits_packWith rest
      have hmark := unmark_mark false hholds.code_lt fun h => nomatch h
      rw [hpacked, List.cons_append, unpackBytes_marked hlong hmark hd rfl hread, List.map_map]
      congr 2
      exact List.map_congr_left fun x _ => zero_add_wrap 1 x
    · obtain ⟨d, hd, hread⟩ := hholds.unpackDigits_packWith rest
      rw [List.length_map] at hread
      have hmark := unmark_mark true hholds.code_lt fun _ => hpos
      rw [hpacked, List.cons_append, List.cons_append,
        unpackBytes_marked hlong hmark hd (unpackBase_rawByte _ _) hread, List.map_map,
        List.map_map]
      congr 2
      exact List.map_congr_left fun x _ => wrap_add_wrap_sub 1 x (least xs)

/-- A byte holds no more than eight numbers. -/
theorem length_le_packBytes (xs : List Int) : xs.length ≤ 8 * (packBytes xs).length := by
  have hpacked {code : Nat} {ys : List Int} (h : Holds code ys) :
      ys.length ≤ 8 * (packWith code ys).length := by
    obtain ⟨d, hd, -⟩ := h
    have hsound := Density.sound (List.mem_of_getElem? hd)
    have hmost : d.perByte ≤ 8 := by
      have hall : ∀ d ∈ densities, d.perByte ≤ 8 := by decide
      exact hall d (List.mem_of_getElem? hd)
    have hbytes : (packWith code ys).length = d.bytesFor ys.length := by
      rw [packWith, hd]
      exact (length_packDigits hsound _).trans (congrArg d.bytesFor (List.length_map _))
    have hroom : ys.length ≤ d.perByte * d.bytesFor ys.length := by
      have hpos := hsound.perByte_pos
      have hnext := Nat.lt_mul_div_succ (ys.length + d.perByte - 1) hpos
      rw [Nat.mul_succ] at hnext
      rw [Density.bytesFor]
      omega
    rw [hbytes]
    exact Nat.le_trans hroom (Nat.mul_le_mul_right _ hmost)
  by_cases hshort : xs.length ≤ unmarked
  · rw [packBytes, if_pos hshort, List.length_map]
    omega
  · obtain ⟨code, hholds, heq⟩ | ⟨code, -, hholds, heq⟩ := packBytes_cases (Nat.lt_of_not_le hshort)
    · have := hpacked hholds
      rw [heq, List.length_cons]
      omega
    · have := hpacked hholds
      rw [List.length_map] at this
      rw [heq, List.length_cons, List.length_cons]
      omega

/-! ### Columns of wider integers -/

theorem length_rawWord (size : Nat) (x : Int) : (rawWord size x).length = size :=
  Bytes.length_ofNatLE size _

theorem toNatLE_rawWord (size : Nat) (x : Int) : Bytes.toNatLE (rawWord size x) = wrap size x := by
  rw [rawWord, Bytes.toNatLE_ofNatLE]
  exact Nat.mod_eq_of_lt (wrap_lt size x)

theorem length_rawWords (size : Nat) (xs : List Int) :
    (xs.flatMap (rawWord size)).length = xs.length * size := by
  induction xs with
  | nil => exact (Nat.zero_mul size).symm
  | cons x xs ih =>
    rw [List.flatMap_cons, List.length_append, length_rawWord, ih, List.length_cons, Nat.succ_mul,
      Nat.add_comm]

theorem words_rawWords (size : Nat) (xs : List Int) :
    words size xs.length (xs.flatMap (rawWord size)) = xs.map (wrap size) := by
  induction xs with
  | nil => rfl
  | cons x xs ih =>
    rw [List.flatMap_cons, List.length_cons, words, List.take_left' (length_rawWord size x),
      List.drop_left' (length_rawWord size x), toNatLE_rawWord, ih, List.map_cons]

theorem unpackWords_rawWords (size : Nat) (xs : List Int) (rest : Bytes) :
    unpackWords size xs.length (xs.flatMap (rawWord size) ++ rest) =
      some (xs.map (wrap size), rest) := by
  have hsplit := Bytes.split?_append (xs.flatMap (rawWord size)) rest
  rw [length_rawWords] at hsplit
  rw [unpackWords, hsplit, ← words_rawWords]
  rfl

theorem unpackParts_packParts (part : Nat) (xs : List Int) (rest : Bytes) :
    unpackParts part xs.length (packParts part xs ++ rest) = some (xs.map (wrap part), rest) := by
  by_cases hone : part = 1
  · subst hone
    exact unpackBytes_packBytes xs rest
  · rw [unpackParts, packParts, if_neg hone, if_neg hone]
    exact unpackWords_rawWords part xs rest

/-- The widths of the integers that take more than one byte. -/
def Wide (size : Nat) : Prop := size = 2 ∨ size = 4 ∨ size = 8

theorem wide_four : Wide 4 := .inr (.inl rfl)

theorem wide_eight : Wide 8 := .inr (.inr rfl)

theorem Wide.ne_one (h : Wide size) : size ≠ 1 := by
  obtain rfl | rfl | rfl := h <;> decide

theorem Wide.capacity_le (h : Wide size) : Bytes.capacity size ≤ Bytes.capacity 8 := by
  obtain rfl | rfl | rfl := h <;> decide

theorem Wide.pos (h : Wide size) : 0 < size := by
  obtain rfl | rfl | rfl := h <;> decide

theorem Wide.le_eight (h : Wide size) : size ≤ 8 := by
  obtain rfl | rfl | rfl := h <;> decide

/-- A width, and any width that its numbers may be cut down to. -/
theorem Wide.halvings {part : Nat} (h : Wide size) (hpart : part = 1 ∨ Wide part)
    (hle : part ≤ size) :
    halvings size part ≤ Nat.log2 size ∧ size >>> halvings size part = part ∧
      halvings size part < 128 ∧ (part < size → 0 < halvings size part) := by
  obtain rfl | rfl | rfl := h <;> obtain rfl | rfl | rfl | rfl := hpart <;> revert hle <;> decide

theorem bytesNeeded_width (n : Int) : bytesNeeded n = 1 ∨ Wide (bytesNeeded n) := by
  unfold bytesNeeded Wide
  split
  · exact .inl rfl
  · split
    · exact .inr (.inl rfl)
    · split
      · exact .inr (.inr (.inl rfl))
      · exact .inr (.inr (.inr rfl))

theorem lt_capacity_bytesNeeded {n : Int} (h : bytesNeeded n < 8 ∨ n < Bytes.capacity 8) :
    n < Bytes.capacity (bytesNeeded n) := by
  unfold bytesNeeded at h ⊢
  split
  · assumption
  · split
    · assumption
    · split
      · assumption
      · next h₁ h₂ h₃ =>
        rw [if_neg h₁, if_neg h₂, if_neg h₃] at h
        exact h.resolve_left (Nat.lt_irrefl 8)

theorem bytesNeeded_le {n : Int} (hsize : Wide size) (h : n < Bytes.capacity size) :
    bytesNeeded n ≤ size := by
  unfold bytesNeeded
  obtain rfl | rfl | rfl := hsize
  · have hlt : n < 0x10000 := h
    grind
  · have hlt : n < 0x100000000 := h
    grind
  · grind

/-- What a column is written as: as it stands with no more than a mark, or cut down to fewer bytes,
or cut down relative to its least value. -/
theorem packInts_cases (hsize : Wide size) (hlong : 2 < xs.length * size)
    (h : ∀ x ∈ xs, x < Bytes.capacity size) :
    (∃ part, (part = 1 ∨ Wide part) ∧ part ≤ size ∧
      (part = size ∨ ∀ x ∈ xs, 0 ≤ x ∧ x < Bytes.capacity part) ∧
      packInts size xs = mark false (halvings size part) :: packParts part xs) ∨
    ∃ part, (part = 1 ∨ Wide part) ∧ part < size ∧
      (∀ x ∈ xs, 0 ≤ x - least xs ∧ x - least xs < Bytes.capacity part) ∧
      packInts size xs = mark true (halvings size part) ::
        (rawWord size (least xs) ++ packParts part (xs.map (· - least xs))) := by
  have hne : xs ≠ [] := by
    rintro rfl
    simp at hlong
  have hgreatest := h _ (greatest_mem hne)
  have hplain : (if least xs < 0 then size else bytesNeeded (greatest xs)) ≤ size := by
    split
    · exact Nat.le_refl size
    · exact bytesNeeded_le hsize hgreatest
  rw [packInts, if_neg (Nat.not_le.2 hlong)]
  by_cases hwide : size ≤ bytesNeeded (greatest (xs.take sampled) - least (xs.take sampled))
  · refine .inl ⟨size, .inr hsize, Nat.le_refl _, .inl rfl, (if_pos hwide).trans ?_⟩
    rw [packParts, if_neg hsize.ne_one, halvings, Nat.div_self hsize.pos]
    rfl
  · by_cases hsaves : bytesNeeded (greatest xs - least xs) <
        (if least xs < 0 then size else bytesNeeded (greatest xs)) ∧ shortColumn < xs.length
    · have hless := Nat.lt_of_lt_of_le hsaves.1 hplain
      refine .inr ⟨_, bytesNeeded_width _, hless, fun x hx => ?_,
        (if_neg hwide).trans (if_pos hsaves)⟩
      have hroom := lt_capacity_bytesNeeded (.inl (Nat.lt_of_lt_of_le hless hsize.le_eight))
      have := least_le hx
      have := le_greatest hx
      omega
    · refine .inl ⟨_, ?_, hplain, ?_, (if_neg hwide).trans (if_neg hsaves)⟩
      · split
        · exact .inr hsize
        · exact bytesNeeded_width _
      · split
        · exact .inl rfl
        · next hpos =>
          refine .inr fun x hx => ?_
          have hroom := lt_capacity_bytesNeeded (.inr (Int.lt_of_lt_of_le hgreatest
            (Int.ofNat_le.2 hsize.capacity_le)))
          have := least_le hx
          have := le_greatest hx
          omega

theorem unpackInts_marked {n : Nat} (hsize : Wide size) (hlong : 2 < n * size) {part : Nat}
    (hpart : part = 1 ∨ Wide part) {relative : Bool} (hle : part ≤ size)
    (hless : relative = true → part < size) {b after rest : Bytes} {base : Nat}
    (hbase : unpackBase size relative b = some (base, after)) {ns : List Nat}
    (hns : unpackParts part n after = some (ns, rest)) :
    unpackInts size n (mark relative (halvings size part) :: b) =
      some (ns.map fun x => (base + x) % Bytes.capacity size, rest) := by
  obtain ⟨hcode, hwidth, hsmall, hpos⟩ := hsize.halvings hpart hle
  have hmark := unmark_mark relative hsmall fun h => hpos (hless h)
  rw [unpackInts.eq_def, if_neg (Nat.not_le.2 hlong)]
  simp only [hmark, if_pos hcode, hbase, hwidth, hns, bind, Option.bind]

/-- **A column of integers is read back**, and what follows it is left. -/
theorem unpackInts_packInts (hsize : Wide size) (h : ∀ x ∈ xs, x < Bytes.capacity size)
    (rest : Bytes) :
    unpackInts size xs.length (packInts size xs ++ rest) = some (xs.map (wrap size), rest) := by
  by_cases hshort : xs.length * size ≤ 2
  · rw [unpackInts.eq_def, packInts, if_pos hshort, if_pos hshort]
    exact unpackWords_rawWords size xs rest
  · have hlong := Nat.lt_of_not_le hshort
    obtain ⟨part, hpart, hle, hsame, hpacked⟩ | ⟨part, hpart, hless, hroom, hpacked⟩ :=
      packInts_cases hsize hlong h
    · have hparts := unpackParts_packParts part xs rest
      rw [hpacked, List.cons_append, unpackInts_marked hsize hlong hpart hle
        (fun h => absurd h Bool.false_ne_true) rfl hparts, List.map_map]
      congr 2
      refine List.map_congr_left fun x hx => ?_
      obtain rfl | hroom := hsame
      · exact zero_add_wrap _ x
      · show (0 + wrap part x) % _ = _
        rw [Nat.zero_add, mod_wrap (hroom x hx).1 (hroom x hx).2]
    · have hbase := unpackBase_append (length_rawWord size (least xs))
        (packParts part (xs.map (· - least xs)) ++ rest)
      have hparts := unpackParts_packParts part (xs.map (· - least xs)) rest
      rw [List.length_map] at hparts
      rw [hpacked, List.cons_append, List.append_assoc, unpackInts_marked hsize hlong hpart
        (Nat.le_of_lt hless) (fun _ => hless) hbase hparts, List.map_map, List.map_map]
      congr 2
      refine List.map_congr_left fun x hx => ?_
      obtain ⟨hpos, hlt⟩ := hroom x hx
      show (Bytes.toNatLE (rawWord size (least xs)) + wrap part (x - least xs)) % _ = _
      rw [toNatLE_rawWord, Nat.add_mod, mod_wrap hpos hlt, ← wrap_add_wrap_sub size x (least xs),
        Nat.mod_eq_of_lt (wrap_lt size (least xs))]

/-! ### Columns of lengths -/

theorem restoreLengths_shortened (ns : List Nat) :
    restoreLengths (ns.map (min · longLength)) (ns.filter (longLength ≤ ·)) = ns := by
  induction ns with
  | nil => rfl
  | cons n ns ih =>
    rw [List.map_cons, restoreLengths, List.filter_cons]
    by_cases hlong : longLength ≤ n
    · rw [if_pos (Nat.min_eq_right hlong), if_pos (decide_eq_true hlong), List.headD_cons,
        List.drop_one, List.tail_cons, ih]
    · have hmin : min n longLength = n := Nat.min_eq_left (Nat.le_of_not_le hlong)
      rw [hmin, if_neg fun h => hlong (Nat.le_of_eq h.symm), if_neg (by simpa using hlong), ih]

theorem count_shortened (ns : List Nat) :
    (ns.map (min · longLength)).count longLength = (ns.filter (longLength ≤ ·)).length := by
  rw [List.count, List.countP_map, ← List.countP_eq_length_filter]
  refine List.countP_congr fun n _ => ?_
  show (min n longLength == longLength) = true ↔ decide (longLength ≤ n) = true
  rw [beq_iff_eq, decide_eq_true_iff]
  omega

/-- **Lengths are read back**, and what follows them is left. -/
theorem unpackLengths_packLengths {ns : List Nat} (h : ∀ n ∈ ns, n < Bytes.capacity 8)
    (rest : Bytes) : unpackLengths ns.length (packLengths ns ++ rest) = some (ns, rest) := by
  have hshort : (ns.map fun n => ((min n longLength : Nat) : Int)).map (wrap 1) =
      ns.map (min · longLength) := by
    rw [List.map_map]
    refine List.map_congr_left fun n _ => ?_
    have hbyte : min n longLength < 256 := Nat.lt_of_le_of_lt (Nat.min_le_right _ _) (by decide)
    exact wrap_of_lt (Int.natCast_nonneg _) (Int.ofNat_lt.2 hbyte)
  have hlong : ((ns.filter (longLength ≤ ·)).map Int.ofNat).map (wrap 8) =
      ns.filter (longLength ≤ ·) := by
    rw [List.map_map]
    refine (List.map_congr_left fun n hn => ?_).trans (List.map_id _)
    exact wrap_of_lt (Int.natCast_nonneg _) (Int.ofNat_lt.2 (h n (List.mem_filter.1 hn).1))
  have hbytes := unpackBytes_packBytes (ns.map fun n => ((min n longLength : Nat) : Int))
    (packInts 8 ((ns.filter (longLength ≤ ·)).map Int.ofNat) ++ rest)
  have hlengths : ∀ x ∈ (ns.filter (longLength ≤ ·)).map Int.ofNat, x < Bytes.capacity 8 := by
    intro x hx
    obtain ⟨n, hn, rfl⟩ := List.mem_map.1 hx
    exact Int.ofNat_lt.2 (h n (List.mem_filter.1 hn).1)
  have hints := unpackInts_packInts wide_eight hlengths rest
  rw [List.length_map, hshort] at hbytes
  rw [List.length_map, hlong, ← count_shortened] at hints
  rw [packLengths, List.append_assoc]
  simp only [unpackLengths, hbytes, hints, bind, Option.bind, restoreLengths_shortened]

/-- Lengths take no fewer bytes than an eighth of their number. -/
theorem length_le_packLengths (ns : List Nat) : ns.length ≤ 8 * (packLengths ns).length := by
  have hbytes := length_le_packBytes (ns.map fun n => ((min n longLength : Nat) : Int))
  rw [List.length_map] at hbytes
  rw [packLengths, List.length_append]
  omega

end RemoteCall.Columnar
