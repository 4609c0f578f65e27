import RemoteCall.Frame.Stream

/-! Chunks do not matter to a frame stream.

A look at the kept bytes that comes to a verdict comes to the same verdict however many
bytes follow (`scan_append`): the layout is in the first two bytes, the length and the id
in the first 17, and the frame in the bytes that the length announces. So draining some
bytes and then what they left together with more bytes is draining all of them
(`drain_append`), and by induction over the chunks everything that a decoder finds depends
on the bytes alone (`findings_new`). -/
namespace RemoteCall

/-! ### Headers with bytes behind them -/

namespace Layout

private theorem take_drop_append {b : Bytes} {offset width : Nat} (h : offset + width ≤ b.length)
    (x : Bytes) : ((b ++ x).drop offset).take width = (b.drop offset).take width := by
  rw [List.drop_append_of_le_length (by omega), List.take_append_of_le_length]
  rw [List.length_drop]
  omega

theorem bodyLength_append (l : Layout) {b : Bytes} (h : headerSize ≤ b.length) (x : Bytes) :
    l.bodyLength (b ++ x) = l.bodyLength b := by
  have h17 : 17 ≤ b.length := h
  unfold bodyLength
  rw [take_drop_append]
  cases l <;> simp only [bodyLengthOffset] <;> omega

theorem requestId_append (l : Layout) {b : Bytes} (h : headerSize ≤ b.length) (x : Bytes) :
    l.requestId (b ++ x) = l.requestId b := by
  have h17 : 17 ≤ b.length := h
  unfold requestId
  rw [take_drop_append]
  cases l <;> simp only [requestIdOffset] <;> omega

end Layout

/-- Two bytes announce a layout or rule it out for good. -/
theorem Header.readLayout_append {b : Bytes} (x : Bytes)
    (h : ∀ expected actual, readLayout b ≠ .error (.truncated expected actual)) :
    readLayout (b ++ x) = readLayout b := by
  match b with
  | [] => exact absurd rfl (h headerSize 0)
  | [magic] =>
    by_cases hm : magic = magicByte
    · exact absurd (by simp [readLayout, hm]) (h headerSize 1)
    · simp [readLayout, hm]
  | magic :: version :: rest => rfl

namespace FrameStream

/-! ### One look, with bytes behind -/

variable {maxBody : Nat} {b : Bytes}

theorem scanFrame_append {l : Layout} {r : FrameItem} {n : Nat} (hb : headerSize ≤ b.length)
    (h : scanFrame l b = .item r n) (x : Bytes) : scanFrame l (b ++ x) = .item r n := by
  have hlen : (b ++ x).length = b.length + x.length := List.length_append
  simp only [scanFrame, l.bodyLength_append hb, l.requestId_append hb] at h ⊢
  by_cases hs : b.length < headerSize + (l.bodyLength b).toNat
  · rw [if_pos hs] at h
    cases h
  · rw [if_neg hs] at h
    rw [if_neg (by omega), List.take_append_of_le_length (by omega)]
    exact h

/-- A poisoned look found its fault in the layout or in the length of the body. -/
theorem scanFrame_ne_poison (l : Layout) (b : Bytes) (fault : FrameFault) :
    scanFrame l b ≠ .poison fault := by
  simp only [scanFrame]
  split
  · exact Scan.noConfusion
  · split <;> exact Scan.noConfusion

/-- What the first two bytes and the length decide is decided with bytes behind them. -/
theorem scan_append (h : scan maxBody b ≠ .wait) (x : Bytes) :
    scan maxBody (b ++ x) = scan maxBody b := by
  have hlen : (b ++ x).length = b.length + x.length := List.length_append
  have hlayout : Header.readLayout (b ++ x) = Header.readLayout b := by
    apply Header.readLayout_append
    intro expected actual he
    exact h (by simp [scan, he])
  unfold scan at h ⊢
  rw [hlayout]
  split
  · next he => simp [he] at h
  · rfl
  · next l hl =>
    simp only [hl] at h
    by_cases hs : b.length < headerSize
    · simp [hs] at h
    · have hb : headerSize ≤ b.length := by omega
      simp only [if_neg hs, if_neg (show ¬ (b ++ x).length < headerSize by omega),
        l.bodyLength_append hb, l.requestId_append hb] at h ⊢
      split
      · rfl
      · next hm =>
        simp only [if_neg hm] at h
        cases hf : scanFrame l b with
        | wait => exact absurd hf h
        | item r n => exact scanFrame_append hb hf x
        | poison fault => exact absurd hf (scanFrame_ne_poison l b fault)

/-! ### Draining in parts -/

theorem drain_wait (h : scan maxBody b = .wait) : drain maxBody b = ⟨[], b, false⟩ := by
  rw [drain]
  split <;> simp_all

theorem drain_poison {fault : FrameFault} (h : scan maxBody b = .poison fault) :
    drain maxBody b = ⟨[.error fault], [], true⟩ := by
  rw [drain]
  split <;> simp_all

theorem drain_item {r : FrameItem} {n : Nat} (h : scan maxBody b = .item r n) :
    drain maxBody b =
      let rest := drain maxBody (b.drop n)
      ⟨r :: rest.items, rest.kept, rest.poisoned⟩ := by
  rw [drain]
  split <;> simp_all

/-- The bytes that a sound stream keeps are waiting for more. -/
def Rest.andThen (maxBody : Nat) (rest : Rest) (x : Bytes) : Rest :=
  if rest.poisoned then rest
  else
    let more := drain maxBody (rest.kept ++ x)
    ⟨rest.items ++ more.items, more.kept, more.poisoned⟩

theorem Rest.andThen_poisoned {rest : Rest} (h : rest.poisoned = true) (x : Bytes) :
    rest.andThen maxBody x = rest := by
  simp [andThen, h]

theorem Rest.andThen_sound {rest : Rest} (h : rest.poisoned = false) (x : Bytes) :
    rest.andThen maxBody x =
      let more := drain maxBody (rest.kept ++ x)
      ⟨rest.items ++ more.items, more.kept, more.poisoned⟩ := by
  simp [andThen, h]

/-- **Draining can be interrupted anywhere**: what is left of the first bytes, and the
bytes that follow, hold exactly what is left of all. -/
theorem drain_append (maxBody : Nat) (b x : Bytes) :
    drain maxBody (b ++ x) = (drain maxBody b).andThen maxBody x := by
  fun_induction drain maxBody b with
  | case1 b h => simp [Rest.andThen]
  | case2 b fault h =>
    rw [drain_poison (by rw [scan_append (by simp [h]), h])]
    simp [Rest.andThen]
  | case3 b r n h rest ih =>
    have hscan : scan maxBody (b ++ x) = .item r n := by rw [scan_append (by simp [h]), h]
    rw [drain_item hscan, List.drop_append_of_le_length (scan_size h).2, ih]
    cases hp : rest.poisoned with
    | true =>
      rw [Rest.andThen_poisoned hp, Rest.andThen_poisoned rfl]
      exact congrArg (Rest.mk _ _) hp
    | false =>
      rw [Rest.andThen_sound hp, Rest.andThen_sound rfl]
      rfl

/-! ### The decoder, chunk by chunk -/

/-- The decoder that has received the given bytes. -/
def after (maxBody : Nat) (b : Bytes) : FrameStream :=
  let rest := drain maxBody b
  ⟨maxBody, rest.kept, rest.poisoned⟩

theorem after_nil (maxBody : Nat) : after maxBody [] = new maxBody := by
  unfold after
  rw [drain_wait (show scan maxBody [] = .wait from rfl)]
  rfl

/-- What a decoder finds in some chunks: the items of each, but for the news that a chunk
behind a poisoning brings. -/
def findings (s : FrameStream) : List Bytes → List FrameItem
  | [] => []
  | chunk :: rest =>
    (if s.poisoned then [] else (s.feed chunk).1) ++ findings (s.feed chunk).2 rest

/-- One chunk takes the decoder of the bytes before it to the decoder of the bytes with it. -/
theorem feed_after (maxBody : Nat) (b chunk : Bytes) :
    ((after maxBody b).feed chunk).2 = after maxBody (b ++ chunk) := by
  cases hp : (drain maxBody b).poisoned with
  | true => simp [after, feed, drain_append maxBody b, Rest.andThen_poisoned hp, hp]
  | false => simp [after, feed, drain_append maxBody b, Rest.andThen_sound hp, hp]

/-- One chunk brings the items that the bytes with it hold beyond those before it. -/
theorem items_append (maxBody : Nat) (b chunk : Bytes) :
    (drain maxBody (b ++ chunk)).items = (drain maxBody b).items ++
      (if (after maxBody b).poisoned then [] else ((after maxBody b).feed chunk).1) := by
  cases hp : (drain maxBody b).poisoned with
  | true => simp [after, drain_append maxBody b, Rest.andThen_poisoned hp, hp]
  | false => simp [after, feed, drain_append maxBody b, Rest.andThen_sound hp, hp]

theorem items_append_flatten (maxBody : Nat) (b : Bytes) (chunks : List Bytes) :
    (drain maxBody (b ++ chunks.flatten)).items =
      (drain maxBody b).items ++ (after maxBody b).findings chunks := by
  induction chunks generalizing b with
  | nil => simp [findings]
  | cons chunk rest ih =>
    rw [List.flatten_cons, ← List.append_assoc, ih, items_append, findings, feed_after,
      List.append_assoc]

theorem feedAll_after (maxBody : Nat) (b : Bytes) (chunks : List Bytes) :
    ((after maxBody b).feedAll chunks).2 = after maxBody (b ++ chunks.flatten) := by
  induction chunks generalizing b with
  | nil => simp [feedAll]
  | cons chunk rest ih =>
    simp only [feedAll, feed_after, ih, List.flatten_cons, List.append_assoc]

/-- A fresh decoder finds in chunks what draining their bytes finds. -/
theorem findings_new (maxBody : Nat) (chunks : List Bytes) :
    (new maxBody).findings chunks = (drain maxBody chunks.flatten).items := by
  have hnil : (drain maxBody []).items = [] := by
    rw [drain_wait (show scan maxBody [] = .wait from rfl)]
  have h := items_append_flatten maxBody [] chunks
  rw [hnil, after_nil] at h
  simpa using h.symm

/-- **Chunking does not matter.** However the same bytes are cut, a fresh decoder finds the
same items in the same order, keeps the same bytes and is poisoned or not alike. -/
theorem feedAll_chunking (maxBody : Nat) (chunks others : List Bytes)
    (h : chunks.flatten = others.flatten) :
    (new maxBody).findings chunks = (new maxBody).findings others ∧
      ((new maxBody).feedAll chunks).2.kept = ((new maxBody).feedAll others).2.kept ∧
      ((new maxBody).feedAll chunks).2.poisoned = ((new maxBody).feedAll others).2.poisoned := by
  refine ⟨?_, ?_⟩
  · rw [findings_new, findings_new, h]
  · rw [← after_nil, feedAll_after, feedAll_after, h]
    exact ⟨rfl, rfl⟩

/-- A frame without a body and a byte that begins no frame, cut inside the header or not at
all and with an empty chunk. -/
theorem feedAll_chunking_in_header :
    let chunks : List Bytes := [[1, 2, 16], [20, 0, 0, 0, 0, 0, 0, 0, 7, 0, 0, 0, 0], [], [0, 9]]
    let others : List Bytes := [[1, 2, 16, 20, 0, 0, 0, 0, 0, 0, 0, 7, 0, 0, 0, 0, 0, 9]]
    chunks.flatten = others.flatten ∧
      (new 16).findings chunks = (new 16).findings others ∧
      ((new 16).feedAll chunks).2.kept = ((new 16).feedAll others).2.kept ∧
      ((new 16).feedAll chunks).2.poisoned = ((new 16).feedAll others).2.poisoned :=
  ⟨rfl, feedAll_chunking 16 _ _ rfl⟩

end FrameStream
end RemoteCall
