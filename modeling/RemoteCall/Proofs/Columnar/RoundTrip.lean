import RemoteCall.Columnar.Codec
import RemoteCall.Proofs.Columnar.Pack
import RemoteCall.Proofs.Value.Native

/-! A value that is written in columns is read back.

The values of one shape share their columns, so the law is about a list of values: their columns,
whatever follows them, are read back as that list (`readAll_writeAll`). A length takes at most
eight bytes and the index of an alternative one, and a value must not be larger than that
(`Fits`). How long the columns are bounds how large a part of a value can be, so a value whose
columns are short fits (`Bounded`). -/
namespace RemoteCall.Columnar

/-! ### Values that fit -/

mutual

/-- Whether every length and every index in a value can be written, and every dictionary in
it is one. -/
def Fits {α : Type} : Shape α → α → Prop
  | .bool, _ | .int _, _ | .char, _ | .unit, _ => True
  | .text, s => Native.fitsLength (Utf8.encode s).length
  | .list item, xs => Native.fitsLength xs.length ∧ ∀ x ∈ xs, Fits item x
  | .option _, none => True
  | .option s, some x => Fits s x
  | .dict value, d =>
    Native.fitsLength d.length ∧ Dict.ofEntries d = d ∧
      ∀ e ∈ d, Native.fitsLength (Utf8.encode e.1).length ∧ Fits value e.2
  | .tuple fields, x => FitsFields fields x
  | .record _ _ fields, x => FitsFields fields x
  | .choice _, i => i.val < 256
  | .via s unwrap _ _, x => Fits s (unwrap x)

def FitsFields {α : Type} : Fields α → α → Prop
  | .nil, _ => True
  | .cons _ s _ rest, (x, xs) => Fits s x ∧ FitsFields rest xs

end

/-! ### Pieces -/

section
variable {α : Type}

theorem pieces_flatten (xss : List (List α)) : pieces (xss.map List.length) xss.flatten = xss := by
  induction xss with
  | nil => rfl
  | cons xs xss ih =>
    rw [List.map_cons, List.flatten_cons, pieces, List.take_left, List.drop_left, ih]

theorem total_lengths (xss : List (List α)) : total (xss.map List.length) = xss.flatten.length := by
  induction xss with
  | nil => rfl
  | cons xs xss ih => rw [List.flatten_cons, List.length_append, ← ih]; rfl

theorem unpackLengths_append {xss : List (List α)} (h : ∀ xs ∈ xss, Native.fitsLength xs.length)
    (rest : Bytes) :
    unpackLengths xss.length (packLengths (xss.map List.length) ++ rest) =
      some (xss.map List.length, rest) := by
  have hlengths : ∀ n ∈ xss.map List.length, n < Bytes.capacity 8 := by
    intro n hn
    obtain ⟨xs, hxs, rfl⟩ := List.mem_map.1 hn
    exact h xs hxs
  have hread := unpackLengths_packLengths hlengths rest
  rwa [List.length_map] at hread

theorem mapM_map {β : Type} {f : α → β} {g : β → Option α} {xs : List α}
    (h : ∀ x ∈ xs, g (f x) = some x) : (xs.map f).mapM g = some xs := by
  induction xs with
  | nil => rfl
  | cons x xs ih =>
    rw [List.map_cons, List.mapM_cons, h x List.mem_cons_self,
      ih fun y hy => h y (List.mem_cons_of_mem _ hy)]
    rfl

/-- Values and marks for the absent ones are put together again. -/
theorem spread_isSome (xs : List (Option α)) :
    spread (xs.map Option.isSome) (xs.filterMap id) = xs := by
  induction xs with
  | nil => rfl
  | cons x xs ih =>
    cases x with
    | none => exact congrArg (none :: ·) ih
    | some x => exact congrArg (some x :: ·) ih

theorem count_isSome (xs : List (Option α)) :
    (xs.map Option.isSome).count true = (xs.filterMap id).length := by
  induction xs with
  | nil => rfl
  | cons x xs ih =>
    cases x with
    | none => exact ih
    | some x =>
      rw [List.map_cons, Option.isSome_some, List.count_cons_self, ih]
      rfl

end

theorem zip_fst_snd {α β : Type} (xs : List (α × β)) :
    (xs.map Prod.fst).zip (xs.map Prod.snd) = xs := by
  rw [← List.unzip_fst, ← List.unzip_snd, List.zip_unzip]

/-! ### Columns of texts, integers and marks -/

theorem text?_encode (s : String) : text? (Utf8.encode s) = some s := by
  rw [text?, Utf8.decode_encode]

theorem readTexts_writeTexts {ss : List String}
    (h : ∀ s ∈ ss, Native.fitsLength (Utf8.encode s).length) (rest : Bytes) :
    readTexts ss.length (writeTexts ss ++ rest) = some (ss, rest) := by
  have hbytes : ∀ b ∈ ss.map Utf8.encode, Native.fitsLength b.length := by
    intro b hb
    obtain ⟨s, hs, rfl⟩ := List.mem_map.1 hb
    exact h s hs
  have hlengths := unpackLengths_append hbytes ((ss.map Utf8.encode).flatten ++ rest)
  have hsplit := Bytes.split?_append (ss.map Utf8.encode).flatten rest
  rw [← total_lengths] at hsplit
  rw [List.length_map] at hlengths
  rw [writeTexts, List.append_assoc]
  simp only [readTexts, hlengths, hsplit, pieces_flatten, bind, Option.bind,
    mapM_map fun s _ => text?_encode s]

theorem capacity_size (k : IntKind) : Bytes.capacity k.size = 2 ^ k.bits := by
  cases k <;> rfl

theorem size_width (k : IntKind) : k.size = 1 ∨ Wide k.size := by
  cases k <;> simp [IntKind.size, Wide]

/-- A word is found in the bytes of its number. -/
theorem ofNat_wrap_toInt (k : IntKind) (w : k.Word) :
    BitVec.ofNat k.bits (wrap k.size (k.toInt w)) = w := by
  have hword : BitVec.ofInt k.bits (k.toInt w) = w := by
    unfold IntKind.toInt
    split <;> simp
  refine Eq.trans (BitVec.eq_of_toNat_eq ?_) hword
  rw [BitVec.toNat_ofNat, BitVec.toNat_ofInt, wrap, capacity_size]
  exact Nat.mod_eq_of_lt (capacity_size k ▸ wrap_lt k.size (k.toInt w))

theorem toInt_lt (k : IntKind) (w : k.Word) : k.toInt w < Bytes.capacity k.size := by
  have hnat : (w.toNat : Int) < Bytes.capacity k.size := by
    rw [capacity_size]
    exact Int.ofNat_lt.2 w.isLt
  unfold IntKind.toInt
  split
  · refine Int.lt_of_le_of_lt ?_ hnat
    rw [BitVec.toInt_eq_toNat_cond]
    split <;> omega
  · exact hnat

theorem readInts_writeInts (k : IntKind) (xs : List k.Word) (rest : Bytes) :
    readInts k xs.length (writeInts k xs ++ rest) = some (xs, rest) := by
  have hwords : ((xs.map k.toInt).map (wrap k.size)).map (BitVec.ofNat k.bits) = xs := by
    rw [List.map_map, List.map_map]
    exact (List.map_congr_left fun w _ => ofNat_wrap_toInt k w).trans (List.map_id _)
  have hread : (if k.size = 1 then unpackBytes xs.length else unpackInts k.size xs.length)
      (writeInts k xs ++ rest) = some ((xs.map k.toInt).map (wrap k.size), rest) := by
    obtain hone | hwide := size_width k
    · have hbytes := unpackBytes_packBytes (xs.map k.toInt) rest
      rw [List.length_map] at hbytes
      rw [writeInts, if_pos hone, if_pos hone, hbytes, hone]
    · have hsmall : ∀ x ∈ xs.map k.toInt, x < Bytes.capacity k.size := by
        intro x hx
        obtain ⟨w, -, rfl⟩ := List.mem_map.1 hx
        exact toInt_lt k w
      have hints := unpackInts_packInts hwide hsmall rest
      rw [List.length_map] at hints
      rw [writeInts, if_neg hwide.ne_one, if_neg hwide.ne_one, hints]
  by_cases hone : k.size = 1
  · rw [if_pos hone] at hread
    simp only [readInts, if_pos hone, hread, bind, Option.bind, hwords]
  · rw [if_neg hone] at hread
    simp only [readInts, if_neg hone, hread, bind, Option.bind, hwords]

theorem char?_toNat (c : Char) : char? c.toNat = some c := by
  have hvalid : c.toNat.isValidChar := c.valid
  rw [char?, if_pos hvalid, Char.ofNat_toNat]

/-- Marks that say which values are there are read back. -/
theorem mapM_present? (marks : List Bool) :
    ((marks.map fun mark => if mark then (1 : Int) else 0).map (wrap 1)).mapM present? =
      some marks := by
  rw [List.map_map]
  refine mapM_map fun mark _ => ?_
  cases mark <;> rfl

/-! ### Whole columns -/

mutual

/-- **The columns of values are read back**, and what follows them is left. -/
theorem readAll_writeAll {α : Type} : (s : Shape α) → (xs : List α) → (∀ x ∈ xs, Fits s x) →
    (rest : Bytes) → readAll s xs.length (writeAll s xs ++ rest) = some (xs, rest)
  | .bool, xs, _, rest => by
    have hdigits : ∀ d ∈ xs.map (fun x => if x then 1 else 0), d < boolDensity.states := by
      intro d hd
      obtain ⟨x, -, rfl⟩ := List.mem_map.1 hd
      cases x <;> decide
    have hread := unpackDigits_packDigits ⟨by decide, by decide, by decide⟩ hdigits rest
    have hvalues : (xs.map (fun x => if x then 1 else 0)).map (fun d : Nat => decide (d = 1)) =
        xs := by
      rw [List.map_map]
      refine (List.map_congr_left fun x _ => ?_).trans (List.map_id _)
      cases x <;> rfl
    rw [List.length_map] at hread
    simp only [readAll, writeAll, hread, hvalues, bind, Option.bind]
  | .int k, xs, _, rest => readInts_writeInts k xs rest
  | .char, xs, _, rest => by
    have hsmall (c : Char) : (c.toNat : Int) < Bytes.capacity 4 := Int.ofNat_lt.2 c.val.toNat_lt
    have hchars : ((xs.map fun c => (c.toNat : Int)).map (wrap 4)).mapM char? = some xs := by
      rw [List.map_map]
      refine mapM_map fun c _ => ?_
      rw [Function.comp_apply, wrap_of_lt (Int.natCast_nonneg _) (hsmall c), Int.toNat_natCast]
      exact char?_toNat c
    have hall : ∀ x ∈ xs.map fun c => (c.toNat : Int), x < Bytes.capacity 4 := by
      intro x hx
      obtain ⟨c, -, rfl⟩ := List.mem_map.1 hx
      exact hsmall c
    have hread := unpackInts_packInts wide_four hall rest
    rw [List.length_map] at hread
    simp only [readAll, writeAll, hread, hchars, bind, Option.bind]
  | .unit, xs, _, rest =>
    congrArg (fun ys => some (ys, rest)) (List.eq_replicate_of_mem (by simp)).symm
  | .text, ss, h, rest => readTexts_writeTexts h rest
  | .list item, xss, h, rest => by
    have hlengths := unpackLengths_append (fun xs hxs => (h xs hxs).1)
      (writeAll item xss.flatten ++ rest)
    have hitems := readAll_writeAll item xss.flatten (fun x hx => ?_) rest
    · rw [← total_lengths] at hitems
      rw [writeAll, List.append_assoc]
      simp only [readAll, hlengths, hitems, pieces_flatten, bind, Option.bind]
    · obtain ⟨xs, hxs, hx⟩ := List.mem_flatten.1 hx
      exact (h xs hxs).2 x hx
  | .option s, xs, h, rest => by
    have hcolumn : (xs.map fun x => if x.isSome then (1 : Int) else 0) =
        (xs.map Option.isSome).map fun mark => if mark then 1 else 0 := by
      rw [List.map_map]
      rfl
    have hread := unpackBytes_packBytes
      ((xs.map Option.isSome).map fun mark => if mark then (1 : Int) else 0)
      (writeAll s (xs.filterMap id) ++ rest)
    have hvalues := readAll_writeAll s (xs.filterMap id) (fun x hx => ?_) rest
    · rw [List.length_map, List.length_map] at hread
      rw [← count_isSome] at hvalues
      rw [writeAll, List.append_assoc, hcolumn]
      simp only [readAll, hread, mapM_present?, hvalues, spread_isSome, bind, Option.bind]
    · obtain ⟨y, hy, rfl⟩ := List.mem_filterMap.1 hx
      exact h (some x) hy
  | .dict value, ds, h, rest => by
    have hlengths := unpackLengths_append (fun d hd => (h d hd).1)
      (writeTexts (ds.flatten.map Prod.fst) ++ (writeAll value (ds.flatten.map Prod.snd) ++ rest))
    have hentry {e : String × _} (he : e ∈ ds.flatten) :
        Native.fitsLength (Utf8.encode e.1).length ∧ Fits value e.2 := by
      obtain ⟨d, hd, he⟩ := List.mem_flatten.1 he
      exact (h d hd).2.2 e he
    have htexts : ∀ s ∈ ds.flatten.map Prod.fst, Native.fitsLength (Utf8.encode s).length := by
      intro s hs
      obtain ⟨e, he, rfl⟩ := List.mem_map.1 hs
      exact (hentry he).1
    have hkeys := readTexts_writeTexts htexts (writeAll value (ds.flatten.map Prod.snd) ++ rest)
    have hvalues := readAll_writeAll value (ds.flatten.map Prod.snd) (fun x hx => ?_) rest
    · have hdicts : ds.map Dict.ofEntries = ds :=
        (List.map_congr_left fun d hd => (h d hd).2.1).trans (List.map_id _)
      rw [List.length_map, ← total_lengths] at hkeys hvalues
      rw [writeAll, List.append_assoc, List.append_assoc]
      simp only [readAll, hlengths, hkeys, hvalues, zip_fst_snd, pieces_flatten, hdicts, bind,
        Option.bind]
    · obtain ⟨e, he, rfl⟩ := List.mem_map.1 hx
      exact (hentry he).2
  | .tuple fields, xs, h, rest => readAllFields_writeAllFields fields xs h rest
  | .record _ _ fields, xs, h, rest => readAllFields_writeAllFields fields xs h rest
  | .choice variants, is, h, rest => by
    have hread := unpackBytes_packBytes (is.map fun i => (i.val : Int)) rest
    have hchoices : ((is.map fun i => (i.val : Int)).map (wrap 1)).mapM
        (choice? variants.length) = some is := by
      rw [List.map_map]
      refine mapM_map fun i hi => ?_
      have hsmall : (i.val : Int) < Bytes.capacity 1 := Int.ofNat_lt.2 (h i hi)
      rw [Function.comp_apply, wrap_of_lt (Int.natCast_nonneg _) hsmall, Int.toNat_natCast]
      exact dif_pos i.isLt
    rw [List.length_map] at hread
    simp only [readAll, writeAll, hread, hchoices, bind, Option.bind]
  | .via s unwrap wrap wrap_unwrap, xs, h, rest => by
    have hread := readAll_writeAll s (xs.map unwrap) (fun y hy => ?_) rest
    · have hwrap : (xs.map unwrap).map wrap = xs := by
        rw [List.map_map]
        exact (List.map_congr_left fun x _ => wrap_unwrap x).trans (List.map_id _)
      rw [List.length_map] at hread
      simp only [readAll, writeAll, hread, hwrap, bind, Option.bind]
    · obtain ⟨x, hx, rfl⟩ := List.mem_map.1 hy
      exact h x hx

theorem readAllFields_writeAllFields {α : Type} : (fields : Fields α) → (xs : List α) →
    (∀ x ∈ xs, FitsFields fields x) → (rest : Bytes) →
    readAllFields fields xs.length (writeAllFields fields xs ++ rest) = some (xs, rest)
  | .nil, xs, _, rest =>
    congrArg (fun ys => some (ys, rest)) (List.eq_replicate_of_mem (by simp)).symm
  | .cons _ s _ fields, xs, h, rest => by
    have hfirst := readAll_writeAll s (xs.map Prod.fst) (fun y hy => ?_)
      (writeAllFields fields (xs.map Prod.snd) ++ rest)
    · have hothers := readAllFields_writeAllFields fields (xs.map Prod.snd) (fun y hy => ?_) rest
      · rw [List.length_map] at hfirst hothers
        rw [writeAllFields, List.append_assoc]
        simp only [readAllFields, hfirst, hothers, bind, Option.bind, zip_fst_snd]
      · obtain ⟨x, hx, rfl⟩ := List.mem_map.1 hy
        exact (h x hx).2
    · obtain ⟨x, hx, rfl⟩ := List.mem_map.1 hy
      exact (h x hx).1

end

theorem decode_encode {α : Type} {s : Shape α} {x : α} (h : Fits s x) :
    decode s (encode s x) = some x := by
  have hread := readAll_writeAll s [x] (fun y hy => List.mem_singleton.1 hy ▸ h) []
  rw [List.append_nil, List.length_singleton] at hread
  rw [decode, encode, hread]

/-! ### Values of few bytes

Many values share the columns, so a bound on the columns must bound each value: a value of most
shapes takes at least a bit. -/

/-- Whether every value of a shape takes a bit or more. -/
def Weighs {α : Type} (s : Shape α) : Prop := ∀ xs, xs.length ≤ 8 * (writeAll s xs).length

/-- Whether values of a shape fit if their columns are short. -/
def Bounded {α : Type} (s : Shape α) : Prop :=
  ∀ xs, 8 * (writeAll s xs).length < Bytes.capacity 8 → ∀ x ∈ xs, Fits s x

def BoundedFields {α : Type} (fields : Fields α) : Prop :=
  ∀ xs, 8 * (writeAllFields fields xs).length < Bytes.capacity 8 → ∀ x ∈ xs, FitsFields fields x

section
variable {α β : Type} {s : Shape α}

theorem weighs_text : Weighs .text := by
  intro ss
  have hlengths := length_le_packLengths ((ss.map Utf8.encode).map List.length)
  rw [List.length_map, List.length_map] at hlengths
  rw [writeAll, writeTexts, List.length_append]
  omega

theorem weighs_u8 : Weighs Shape.u8 := by
  intro xs
  have hcount : ((xs.map UInt8.toBitVec).map (IntKind.toInt .u8)).length = xs.length :=
    (List.length_map _).trans (List.length_map _)
  exact Nat.le_trans (Nat.le_of_eq hcount.symm) (length_le_packBytes _)

theorem weighs_list (s : Shape α) : Weighs (.list s) := by
  intro xss
  have hlengths := length_le_packLengths (xss.map List.length)
  rw [List.length_map] at hlengths
  rw [writeAll, List.length_append]
  omega

theorem bounded_text : Bounded .text := by
  intro ss hbound t ht
  have hpart : (Utf8.encode t).length ≤ (ss.map Utf8.encode).flatten.length :=
    (List.sublist_flatten_of_mem (List.mem_map_of_mem ht)).length_le
  rw [writeAll, writeTexts, List.length_append] at hbound
  show _ < _
  omega

theorem bounded_u8 : Bounded Shape.u8 := fun _ _ _ _ => trivial

theorem bounded_list (weighs : Weighs s) (bounded : Bounded s) : Bounded (.list s) := by
  intro xss hbound xs hxs
  have hitems : 8 * (writeAll s xss.flatten).length < Bytes.capacity 8 := by
    rw [writeAll, List.length_append] at hbound
    omega
  have hcount : xs.length ≤ xss.flatten.length := (List.sublist_flatten_of_mem hxs).length_le
  refine ⟨Nat.lt_of_le_of_lt (Nat.le_trans hcount (weighs _)) hitems, fun x hx => ?_⟩
  exact bounded _ hitems x (List.mem_flatten.2 ⟨xs, hxs, hx⟩)

theorem bounded_option (bounded : Bounded s) : Bounded (.option s) := by
  intro xs hbound x hx
  cases x with
  | none => trivial
  | some x =>
    refine bounded (xs.filterMap id) ?_ x (List.mem_filterMap.2 ⟨some x, hx, rfl⟩)
    rw [writeAll, List.length_append] at hbound
    omega

theorem boundedFields_nil : BoundedFields .nil := fun _ _ _ _ => trivial

theorem boundedFields_cons {name : String} {absent : Option α} {fields : Fields β}
    (first : Bounded s) (others : BoundedFields fields) :
    BoundedFields (.cons name s absent fields) := by
  intro xs hbound x hx
  rw [writeAllFields, List.length_append] at hbound
  exact ⟨first _ (by omega) x.1 (List.mem_map_of_mem hx),
    others _ (by omega) x.2 (List.mem_map_of_mem hx)⟩

theorem bounded_via {unwrap : β → α} {wrap : α → β} {wrap_unwrap : ∀ b, wrap (unwrap b) = b}
    (bounded : Bounded s) : Bounded (.via s unwrap wrap wrap_unwrap) :=
  fun xs hbound _ hx => bounded (xs.map unwrap) hbound _ (List.mem_map_of_mem hx)

theorem bounded_record {name path : String} {fields : Fields α} (bounded : BoundedFields fields) :
    Bounded (.record name path fields) := bounded

end

theorem bounded_bytes : Bounded Shape.bytes := bounded_list weighs_u8 bounded_u8

/-- A value of few bytes is read back. -/
theorem decode_encode_of_bounded {α : Type} {s : Shape α} (bounded : Bounded s) {x : α}
    (h : 8 * (encode s x).length < Bytes.capacity 8) : decode s (encode s x) = some x :=
  decode_encode (bounded [x] h x List.mem_cons_self)

end RemoteCall.Columnar
