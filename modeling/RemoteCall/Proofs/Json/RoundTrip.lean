import RemoteCall.Proofs.Json.Tokens

/-! A value that is written as JSON is read back.

JSON keeps all but one thing: an optional value whose own text may be `null` cannot be
told from none at all. Where that does not occur, and names are unique where they decide
(`Legible`), reading a text and anything behind it that ends a number gives the value that
was written and leaves what was behind (`read_write`).

What stands between brackets is read by one step for each element: an element begins with
a byte that is neither a blank nor a closing bracket (`write_begins`), and behind it comes
a comma or the closing bracket. The members of an object fill the slots of a record from
the first to the last (`readMembers_row`). -/
namespace RemoteCall.Json

/-! ### Values that can be read back -/

/-- Whether a text of the shape may be `null`. -/
def nullable {α : Type} : Shape α → Bool
  | .unit | .option _ => true
  | .via s _ _ _ => nullable s
  | _ => false

mutual

/-- Whether the text of a value is the text of no other. -/
def Legible {α : Type} : Shape α → α → Prop
  | .bool, _ | .int _, _ | .char, _ | .unit, _ | .text, _ => True
  | .list item, xs => ∀ x ∈ xs, Legible item x
  | .option _, none => True
  | .option s, some x => nullable s = false ∧ Legible s x
  | .dict value, d => Dict.ofEntries d = d ∧ ∀ e ∈ d, Legible value e.2
  | .tuple fields, x => LegibleFields fields x
  | .record _ _ fields, x => fields.names.Nodup ∧ LegibleFields fields x
  | .choice variants, i => variants.finIdxOf? (variants.get i) = some i
  | .via s unwrap _ _, x => Legible s (unwrap x)

def LegibleFields {α : Type} : Fields α → α → Prop
  | .nil, _ => True
  | .cons _ s _ rest, (x, xs) => Legible s x ∧ LegibleFields rest xs

end

/-! ### Texts in a row -/

/-- Texts with a comma in front of each but the first. -/
def row : (first : Bool) → List String → Bytes
  | _, [] => []
  | first, t :: ts => (if first then [] else [44]) ++ (Utf8.encode t ++ row false ts)

theorem encode_intercalate (ts : List String) :
    Utf8.encode (",".intercalate ts) = row true ts := by
  induction ts with
  | nil => rfl
  | cons t ts ih =>
    cases ts with
    | nil => rw [String.intercalate_singleton, row, row, List.append_nil]; rfl
    | cons u ts =>
      rw [String.intercalate_cons_cons, Utf8.encode_append, Utf8.encode_append, ih,
        List.append_assoc]
      rfl

theorem encode_inBrackets (items : List String) :
    Utf8.encode (inBrackets items) = 91 :: (row true items ++ [93]) := by
  rw [inBrackets, Utf8.encode_append, Utf8.encode_append, encode_intercalate]
  rfl

/-- A key and the text of its value. -/
def member (e : String × String) : String := writeText e.1 ++ ":" ++ e.2

theorem encode_member (e : String × String) :
    Utf8.encode (member e) = 34 :: (contentOf e.1 ++ 34 :: 58 :: Utf8.encode e.2) := by
  rw [member, Utf8.encode_append, Utf8.encode_append, encode_writeText]
  show 34 :: (contentOf e.1 ++ [34]) ++ [58] ++ _ = _
  simp only [List.cons_append, List.append_assoc, List.nil_append]

theorem encode_inBraces (entries : List (String × String)) :
    Utf8.encode (inBraces entries) = 123 :: (row true (entries.map member) ++ [125]) := by
  rw [inBraces, Utf8.encode_append, Utf8.encode_append, encode_intercalate]
  rfl

/-- A number in a row ends behind it. -/
theorem endsNumber_row {c : UInt8} (hc : c = 93 ∨ c = 125) (ts : List String) (rest : Bytes) :
    EndsNumber (row false ts ++ c :: rest) := by
  cases ts with
  | nil => rcases hc with rfl | rfl <;> exact ⟨rfl, by decide, by decide, by decide⟩
  | cons t ts => exact ⟨rfl, by decide, by decide, by decide⟩

/-! ### How texts begin -/

theorem digit_ne {b c : UInt8} (hb : isDigit b = true) (hc : isDigit c = false) : b ≠ c := by
  rintro rfl
  rw [hb] at hc
  cases hc

theorem encode_toString_begins (i : Int) :
    ∃ c tail, Utf8.encode (toString i) = c :: tail ∧ isBlank c = false ∧ c ≠ 93 ∧ c ≠ 110 := by
  rw [Int.toString_eq_repr, Int.repr_eq_if]
  split
  · obtain ⟨b, tail, hbytes, hdigit, -, -⟩ := scan_repr i.toNat
    exact ⟨b, tail, hbytes, isBlank_digit hdigit, digit_ne hdigit rfl, digit_ne hdigit rfl⟩
  · rw [Utf8.encode_append]
    exact ⟨45, _, rfl, rfl, by decide, by decide⟩

/-- The text of a value begins like a value, and not like `null` unless it may be that. -/
theorem write_begins {α : Type} : (s : Shape α) → (x : α) →
    ∃ c tail, Utf8.encode (write s x) = c :: tail ∧ isBlank c = false ∧ c ≠ 93 ∧
      (nullable s = false → c ≠ 110)
  | .bool, b => by cases b <;> exact ⟨_, _, rfl, rfl, by decide, fun _ => by decide⟩
  | .int k, w => by
    obtain ⟨c, tail, hbytes, hblank, hclose, hnull⟩ := encode_toString_begins (k.toInt w)
    exact ⟨c, tail, hbytes, hblank, hclose, fun _ => hnull⟩
  | .char, c => ⟨_, _, encode_writeText c.toString, rfl, by decide, fun _ => by decide⟩
  | .unit, _ => ⟨110, ull, by rw [write]; rfl, rfl, by decide, fun h => by cases h⟩
  | .text, s => ⟨_, _, encode_writeText s, rfl, by decide, fun _ => by decide⟩
  | .list item, xs => ⟨_, _, encode_inBrackets _, rfl, by decide, fun _ => by decide⟩
  | .option _, none => ⟨110, ull, by rw [write]; rfl, rfl, by decide, fun h => by cases h⟩
  | .option s, some x => by
    obtain ⟨c, tail, hbytes, hblank, hclose, -⟩ := write_begins s x
    exact ⟨c, tail, hbytes, hblank, hclose, fun h => by cases h⟩
  | .dict value, d => ⟨_, _, encode_inBraces _, rfl, by decide, fun _ => by decide⟩
  | .tuple fields, x => ⟨_, _, encode_inBrackets _, rfl, by decide, fun _ => by decide⟩
  | .record _ _ fields, x => ⟨_, _, encode_inBraces _, rfl, by decide, fun _ => by decide⟩
  | .choice variants, i => ⟨_, _, encode_writeText _, rfl, by decide, fun _ => by decide⟩
  | .via s unwrap _ _, x => write_begins s (unwrap x)

/-! ### Inside brackets -/

/-- Whether some bytes begin like a value. -/
def Begins (b : Bytes) : Prop := ∃ c tail, b = c :: tail ∧ isBlank c = false ∧ c ≠ 93

theorem Begins.length_pos {b : Bytes} (h : Begins b) : 1 ≤ b.length := by
  obtain ⟨c, tail, rfl, -⟩ := h
  exact Nat.succ_pos _

theorem begins_write {α : Type} (s : Shape α) (x : α) : Begins (Utf8.encode (write s x)) := by
  obtain ⟨c, tail, hbytes, hblank, hclose, -⟩ := write_begins s x
  exact ⟨c, tail, hbytes, hblank, hclose⟩

/-- No text in a row is empty, so a row is at least as long as it has texts. -/
theorem length_row (ts : List String) (h : ∀ t ∈ ts, 1 ≤ (Utf8.encode t).length) (first : Bool) :
    ts.length ≤ (row first ts).length := by
  induction ts generalizing first with
  | nil => exact Nat.zero_le _
  | cons t ts ih =>
    have hhead := h t List.mem_cons_self
    have htail := ih (fun u hu => h u (List.mem_cons_of_mem _ hu)) false
    rw [row, List.length_append, List.length_append, List.length_cons]
    omega

/-- In front of an element. -/
theorem nextElement_begins {b : Bytes} (h : Begins b) (first : Bool) (rest : Bytes) :
    nextElement first ((if first then [] else [44]) ++ (b ++ rest)) = .ok (true, b ++ rest) := by
  obtain ⟨c, tail, rfl, hblank, hclose⟩ := h
  cases first with
  | true => simp [nextElement, skipBlanks_of_not_blank hblank, hclose]
  | false =>
    have hcomma : isBlank 44 = false := rfl
    simp [nextElement, skipBlanks_of_not_blank hcomma, skipBlanks_of_not_blank hblank, hclose]

/-- In front of a member: reading goes on behind the mark that opens its key. -/
theorem nextKey_mark (first : Bool) (rest : Bytes) :
    nextKey first ((if first then [] else [44]) ++ 34 :: rest) = .ok (true, rest) := by
  cases first <;> rfl

/-- Elements that are read back one by one are read back in a row. -/
theorem readElements_row {α : Type} {item : Scanner α} {text : α → String} {xs : List α}
    (hbegins : ∀ x ∈ xs, Begins (Utf8.encode (text x)))
    (hitem : ∀ x ∈ xs, ∀ rest, EndsNumber rest →
      item (Utf8.encode (text x) ++ rest) = .ok (x, rest))
    {fuel : Nat} (hfuel : xs.length < fuel) (first : Bool) (rest : Bytes) :
    readElements item fuel first (row first (xs.map text) ++ 93 :: rest) = .ok (xs, 93 :: rest) := by
  obtain ⟨fuel, rfl⟩ : ∃ n, fuel = n + 1 := ⟨fuel - 1, by omega⟩
  induction xs generalizing fuel first with
  | nil => rfl
  | cons x xs ih =>
    rw [List.length_cons] at hfuel
    obtain ⟨fuel, rfl⟩ : ∃ n, fuel = n + 1 := ⟨fuel - 1, by omega⟩
    have hnext := nextElement_begins (hbegins x List.mem_cons_self) first
      (row false (xs.map text) ++ 93 :: rest)
    have hx := hitem x List.mem_cons_self _ (endsNumber_row (.inl rfl) (xs.map text) rest)
    have hxs := ih (fun y hy => hbegins y (List.mem_cons_of_mem _ hy))
      (fun y hy => hitem y (List.mem_cons_of_mem _ hy)) false fuel (by omega)
    rw [List.map_cons, row, List.append_assoc, List.append_assoc, readElements, hnext]
    simp only [bind, Except.bind, if_true, hx, hxs]

/-- So are the entries of a dictionary. -/
theorem readEntries_row {α : Type} {value : Scanner α} {text : α → String}
    {d : List (String × α)}
    (hvalue : ∀ e ∈ d, ∀ rest, EndsNumber rest →
      value (Utf8.encode (text e.2) ++ rest) = .ok (e.2, rest))
    {fuel : Nat} (hfuel : d.length < fuel) (first : Bool) (rest : Bytes) :
    readEntries value fuel first
        (row first (d.map fun e => member (e.1, text e.2)) ++ 125 :: rest) =
      .ok (d, 125 :: rest) := by
  obtain ⟨fuel, rfl⟩ : ∃ n, fuel = n + 1 := ⟨fuel - 1, by omega⟩
  induction d generalizing fuel first with
  | nil => cases first <;> rfl
  | cons e d ih =>
    rw [List.length_cons] at hfuel
    obtain ⟨fuel, rfl⟩ : ∃ n, fuel = n + 1 := ⟨fuel - 1, by omega⟩
    have hx := hvalue e List.mem_cons_self _
      (endsNumber_row (.inr rfl) (d.map fun e => member (e.1, text e.2)) rest)
    have hd := ih (fun y hy => hvalue y (List.mem_cons_of_mem _ hy)) false fuel (by omega)
    rw [List.map_cons, row, encode_member, List.append_assoc, List.append_assoc, List.cons_append,
      readEntries, nextKey_mark]
    simp only [bind, Except.bind, if_true]
    rw [List.append_assoc, List.cons_append, List.cons_append, scanString_write]
    simp only [show ∀ b, scanColon (58 :: b) = .ok b from fun _ => rfl, hx, hd]

/-! ### Fields -/

/-- Whether every field of a record is read back on its own. -/
def FieldsBack {α : Type} : Fields α → α → Prop
  | .nil, _ => True
  | .cons _ s _ rest, (x, xs) =>
    (∀ b, EndsNumber b → read s (Utf8.encode (write s x) ++ b) = .ok (x, b)) ∧ FieldsBack rest xs

theorem readPositions_row {α : Type} : (fields : Fields α) → (x : α) → FieldsBack fields x →
    (expected : String) → (index : Nat) → (rest : Bytes) →
    readPositions fields expected index
        (row (index = 0) (writeFields fields x) ++ 93 :: rest) = .ok (x, 93 :: rest)
  | .nil, (), _, _, _, _ => rfl
  | .cons _ s _ fields, (x, xs), h, expected, index, rest => by
    have hnext := nextElement_begins (begins_write s x) (index = 0)
      (row false (writeFields fields xs) ++ 93 :: rest)
    have hx := h.1 _ (endsNumber_row (.inl rfl) (writeFields fields xs) rest)
    have hxs := readPositions_row fields xs h.2 expected (index + 1) rest
    rw [show decide (index + 1 = 0) = false from rfl] at hxs
    rw [writeFields, row, List.append_assoc, List.append_assoc, readPositions]
    simp only [hnext, hx, hxs, lifted, bind, Except.bind, if_true]

/-- The slots of a record, the first and the others. -/
def Slots.cons {α β : Type} {name : String} {s : Shape α} {absent : Option α} {rest : Fields β}
    (slot : Option α) (others : Slots rest) : Slots (.cons name s absent rest) := (slot, others)

/-- The slots of a record that has been read in full. -/
def Slots.full {α : Type} : (fields : Fields α) → α → Slots fields
  | .nil, _ => ()
  | .cons _ _ _ rest, (x, xs) => .cons (some x) (Slots.full rest xs)

theorem Slots.finish_full {α : Type} : (fields : Fields α) → (x : α) →
    Slots.finish fields (Slots.full fields x) = .ok x
  | .nil, () => rfl
  | .cons _ _ _ rest, (x, xs) => by
    have := Slots.finish_full rest xs
    show (Slots.finish rest (Slots.full rest xs)).bind _ = _
    rw [this]
    rfl

section Members
variable {α β : Type} {name key : String} {s : Shape α} {absent : Option α} {rest : Fields β}

theorem readMember_same (others : Slots rest) :
    readMember (.cons name s absent rest) name (.cons none others) = some (fun b => do
      let b ← lifted (scanColon b)
      let (x, b) ← lifted (read s b)
      .ok (.cons (some x) others, b)) := by
  rw [readMember, if_pos rfl]
  rfl

theorem readMember_other (h : key ≠ name) (slot : Option α) (others : Slots rest) :
    readMember (.cons name s absent rest) key (.cons slot others) =
      (readMember rest key others).map (fun value b => do
        let (others, b) ← value b
        .ok (.cons slot others, b)) := by
  rw [readMember, if_neg h]
  rfl

end Members

/-- One member of a name that is known. -/
theorem readMembers_known {σ : Type} {one : String → σ → Option (Contents σ)} {name : String}
    {slots : σ} {value : Contents σ} (h : one name slots = some value) (fuel : Nat) (first : Bool)
    (b : Bytes) :
    readMembers one (fuel + 1) first slots
        ((if first then [] else [44]) ++ 34 :: (contentOf name ++ 34 :: b)) =
      (value b).bind fun (slots, b) => readMembers one fuel false slots b := by
  rw [readMembers, nextKey_mark]
  simp only [lifted, bind, Except.bind, if_true, scanString_write, h]

/-- The members of a record fill its slots one by one. The slots may be part of a larger
state (`put`), which the reader of a member changes there and nowhere else. -/
theorem readMembers_row {σ : Type} (one : String → σ → Option (Contents σ)) {α : Type} :
    (fields : Fields α) → (x : α) → FieldsBack fields x → fields.names.Nodup →
    (put : Slots fields → σ) →
    (∀ name ∈ fields.names, ∀ slots, one name (put slots) =
      (readMember fields name slots).map fun value b => do
        let (slots, b) ← value b
        .ok (put slots, b)) →
    (fuel : Nat) → fields.count < fuel → (first : Bool) → (rest : Bytes) →
    readMembers one fuel first (put (Slots.empty fields))
        (row first ((fields.names.zip (writeFields fields x)).map member) ++ 125 :: rest) =
      .ok (put (Slots.full fields x), 125 :: rest)
  | .nil, (), _, _, put, _, fuel + 1, _, first, rest => by cases first <;> rfl
  | .cons name s absent fields, (x, xs), h, hnames, put, hone, fuel + 1, hfuel, first, rest => by
    have hx := h.1 _ (endsNumber_row (.inr rfl)
      ((fields.names.zip (writeFields fields xs)).map member) rest)
    obtain ⟨hfresh, hnames⟩ := List.nodup_cons.1 hnames
    have hself := hone name List.mem_cons_self (.cons none (Slots.empty fields))
    rw [readMember_same, Option.map_some] at hself
    have hxs := readMembers_row one fields xs h.2 hnames (fun others => put (.cons (some x) others))
      (fun other hother others => by
        have hne : other ≠ name := fun heq => hfresh (heq ▸ hother)
        rw [hone other (List.mem_cons_of_mem _ hother), readMember_other hne, Option.map_map]
        congr 1
        funext value b
        simp only [Function.comp, bind, Except.bind]
        cases value b <;> rfl)
      fuel (Nat.lt_of_succ_lt_succ hfuel) false rest
    rw [Fields.names, writeFields, List.zip_cons_cons, List.map_cons, row, encode_member,
      List.append_assoc, List.append_assoc, List.cons_append, List.append_assoc, List.cons_append]
    show readMembers one (fuel + 1) first (put (.cons none (Slots.empty fields))) _ = _
    rw [readMembers_known hself]
    simp only [lifted, bind, Except.bind, List.cons_append,
      show ∀ b, scanColon (58 :: b) = .ok b from fun _ => rfl, hx]
    exact hxs

theorem count_eq {α : Type} : (fields : Fields α) → (x : α) →
    ((fields.names.zip (writeFields fields x)).map member).length = fields.count
  | .nil, () => rfl
  | .cons _ _ _ rest, (_, xs) => congrArg (· + 1) (count_eq rest xs)

theorem member_length_pos (e : String × String) : 1 ≤ (Utf8.encode (member e)).length := by
  rw [encode_member]
  exact Nat.succ_pos _

theorem readObject_row {α : Type} {fields : Fields α} {x : α} (h : FieldsBack fields x)
    (hnames : fields.names.Nodup) (rest : Bytes) :
    readObject fields (readMember fields)
        (row true ((fields.names.zip (writeFields fields x)).map member) ++ 125 :: rest) =
      .ok (x, 125 :: rest) := by
  let members := (fields.names.zip (writeFields fields x)).map member
  have hlength : fields.count ≤ (row true members).length := by
    rw [← count_eq fields x]
    refine length_row members (fun t ht => ?_) true
    obtain ⟨e, -, rfl⟩ := List.mem_map.1 ht
    exact member_length_pos e
  have hfuel : fields.count < (row true members ++ 125 :: rest).length + 1 := by
    rw [List.length_append]
    omega
  have hread : readMembers (readMember fields) ((row true members ++ 125 :: rest).length + 1) true
      (Slots.empty fields) (row true members ++ 125 :: rest) =
      .ok (Slots.full fields x, 125 :: rest) :=
    readMembers_row (readMember fields) fields x h hnames id (fun name _ slots => by
      show readMember fields name slots = _
      cases readMember fields name slots with
      | none => rfl
      | some value =>
        refine congrArg some (funext fun b => ?_)
        show value b = (value b).bind _
        cases value b <;> rfl) _ hfuel true rest
  rw [readObject]
  show (readMembers (readMember fields) ((row true members ++ 125 :: rest).length + 1) true
    (Slots.empty fields) (row true members ++ 125 :: rest)).bind _ = _
  rw [hread]
  delta Except.bind
  dsimp only
  rw [Slots.finish_full]

theorem readList_open {α : Type} (item : Scanner α) (b : Bytes) :
    readList item (91 :: b) =
      closing closeList (fun b => lifted (readElements item (b.length + 1) true b)) b := rfl

theorem readDict_open {α : Type} (value : Scanner α) (b : Bytes) :
    readDict value (123 :: b) =
      (closing closeObject (fun b => lifted (readEntries value (b.length + 1) true b)) b).bind
        fun (entries, rest) => .ok (Dict.ofEntries entries, rest) := rfl

/-! ### Whole values -/

mutual

/-- **A value that is written is read back**, and what follows it is left. -/
theorem read_write {α : Type} : (s : Shape α) → (x : α) → Legible s x → (rest : Bytes) →
    EndsNumber rest → read s (Utf8.encode (write s x) ++ rest) = .ok (x, rest)
  | .bool, b, _, rest, _ => by cases b <;> rfl
  | .int k, w, _, rest, hrest => readInt_write hrest k w
  | .char, c, _, rest, _ => by
    rw [read, write, encode_writeText, List.cons_append, List.append_assoc]
    show (scanString (contentOf c.toString ++ 34 :: rest)).bind _ = _
    rw [scanString_write]
    simp [Except.bind, Char.toString]
  | .unit, (), _, rest, _ => by rw [write]; rfl
  | .text, s, _, rest, _ => by
    rw [read, write, encode_writeText, List.cons_append, List.append_assoc]
    exact scanString_write s rest
  | .list item, xs, h, rest, _ => by
    have hlength := length_row (xs.map (write item)) (fun t ht => by
      obtain ⟨x, -, rfl⟩ := List.mem_map.1 ht
      exact (begins_write item x).length_pos) true
    rw [List.length_map] at hlength
    rw [read, write, encode_inBrackets, List.cons_append, List.append_assoc, readList_open,
      closing, List.singleton_append, readElements_row (fun x _ => begins_write item x)
        (fun x hx rest hrest => read_write item x (h x hx) rest hrest)
        (by rw [List.length_append]; omega)]
    rfl
  | .option _, none, _, rest, _ => by rw [write, read]; rfl
  | .option s, some x, h, rest, hrest => by
    obtain ⟨c, tail, hbytes, hblank, -, hnull⟩ := write_begins s x
    have hx := read_write s x h.2 rest hrest
    rw [write, read]
    dsimp only
    rw [hx, hbytes, List.cons_append, skipBlanks_of_not_blank hblank]
    split
    · next heq => exact absurd (List.cons.inj heq).1 (hnull h.1)
    · rfl
  | .dict value, d, h, rest, _ => by
    obtain ⟨hdict, hentries⟩ := h
    have hlength := length_row (d.map fun e => member (e.1, write value e.2)) (fun t ht => by
      obtain ⟨e, -, rfl⟩ := List.mem_map.1 ht
      exact member_length_pos _) true
    rw [List.length_map] at hlength
    have hmap : (d.map fun (k, v) => (k, write value v)).map member =
        d.map fun e => member (e.1, write value e.2) := List.map_map
    rw [read, write, encode_inBraces, hmap, List.cons_append, List.append_assoc, readDict_open,
      closing, List.singleton_append, readEntries_row
        (fun e he rest hrest => read_write value e.2 (hentries e he) rest hrest)
        (by rw [List.length_append]; omega)]
    show Except.ok (Dict.ofEntries d, rest) = _
    rw [hdict]
  | .tuple fields, x, h, rest, _ => by
    rw [read, write, encode_inBrackets, List.cons_append, List.append_assoc]
    show closing closeList (readPositions fields _ 0) _ = _
    rw [closing, show row true (writeFields fields x) = row (0 = 0) (writeFields fields x) from rfl,
      List.singleton_append, readPositions_row fields x (fields_back fields x h)]
    rfl
  | .record _ _ fields, x, h, rest, _ => by
    rw [read, write, encode_inBraces, List.cons_append, List.append_assoc]
    show closing closeObject (readObject fields (readMember fields)) _ = _
    rw [closing, List.singleton_append, readObject_row (fields_back fields x h.2) h.1]
    rfl
  | .choice variants, i, h, rest, _ => by
    rw [read, write, encode_writeText, List.cons_append, List.append_assoc]
    show (scanString (contentOf (variants.get i) ++ 34 :: rest)).bind _ = _
    rw [scanString_write]
    show variant variants (variants.get i) rest = _
    rw [variant, show variants.finIdxOf? (variants.get i) = some i from h]
  | .via s unwrap wrap wrap_unwrap, x, h, rest, hrest => by
    rw [read, write]
    dsimp only
    rw [read_write s (unwrap x) h rest hrest]
    simp only [Except.map, wrap_unwrap]

theorem fields_back {α : Type} : (fields : Fields α) → (x : α) → LegibleFields fields x →
    FieldsBack fields x
  | .nil, _, _ => trivial
  | .cons _ s _ fields, (x, xs), h =>
    ⟨fun b hb => read_write s x h.1 b hb, fields_back fields xs h.2⟩

end

theorem decode_encode {α : Type} {s : Shape α} {x : α} (h : Legible s x) :
    decode s (encode s x) = .ok x := by
  have hread := read_write s x h [] trivial
  rw [List.append_nil] at hread
  rw [decode, encode, hread]
  rfl

end RemoteCall.Json
