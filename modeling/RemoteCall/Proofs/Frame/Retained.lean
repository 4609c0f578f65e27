import RemoteCall.Proofs.Frame.Resynchronisation
import Mathlib.Algebra.GroupWithZero.Nat
import Mathlib.Data.List.Forall2

/-! What a frame stream holds back.

What a stream has passed and what it keeps are the bytes it was fed, cut at the ends of the frames
(`Keeps`): each item took a part as long as its header announces (`Passed`), and what is kept is
too short for another one (`Unfinished`), so it is never as long as a header and the longest body
(`Unfinished.length_lt`). That the inner reader finds nothing wrong with a part but its ids rests
on the three looks at the header seeing what the reader sees (`Header.read_eq_fieldsIn`). A stream
that has lost the ends of the frames keeps nothing and has nothing more to say
(`feedAll_retained`). -/
namespace RemoteCall

/-! ### Which errors are which -/

namespace FrameError

/-- What is wrong with a frame whose end can still be told. -/
inductive Skips : FrameError → Prop where
  | serializer (id : UInt8) : Skips (.unknownSerializer id)
  | type (id : UInt8) : Skips (.unknownMessageType id)
  | status (id : UInt8) : Skips (.unknownStatus id)

/-- What is wrong with a header behind which no frame can be found. -/
inductive Breaks : FrameError → Prop where
  | magic (byte : UInt8) : Breaks (.badMagic byte)
  | version (version : UInt8) : Breaks (.unsupportedVersion version)
  | tooLong (length max : Nat) : Breaks (.bodyTooLarge length max)

end FrameError

/-! ### The looks at a header and its reading -/

namespace Header
variable {l : Layout} {b : Bytes}

/-- The body length that the header in front announces, if its layout can be told. -/
def announced (b : Bytes) : Nat :=
  match readLayout b with
  | .ok l => (l.bodyLength b).toNat
  | .error _ => 0

theorem announced_of_layout (h : readLayout b = .ok l) : announced b = (l.bodyLength b).toNat := by
  rw [announced, h]

/-- Two bytes rule a layout out, or are still to come. -/
theorem readLayout_error {e : FrameError} (h : readLayout b = .error e) :
    b.length < headerSize ∧ (∃ expected actual, e = .truncated expected actual) ∨ e.Breaks := by
  match b with
  | [] => exact .inl ⟨by decide, _, _, (Except.error.inj h).symm⟩
  | [magic] =>
    by_cases hm : magic = magicByte
    · rw [readLayout, if_neg (not_not_intro hm)] at h
      have hshort : 1 < headerSize := by decide
      exact .inl ⟨hshort, _, _, (Except.error.inj h).symm⟩
    · rw [readLayout, if_pos hm] at h
      exact .inr (Except.error.inj h ▸ .magic magic)
  | magic :: version :: rest =>
    by_cases hm : magic = magicByte
    · rw [readLayout, if_neg (not_not_intro hm)] at h
      cases hv : Layout.ofVersion? version with
      | some l => simp [hv] at h
      | none =>
        simp only [hv, Except.error.injEq] at h
        exact .inr (h ▸ .version version)
    · rw [readLayout, if_pos hm] at h
      exact .inr (Except.error.inj h ▸ .magic magic)

/-- The reader of a complete header has the layout from the same look. -/
theorem read_eq_fieldsIn (hlayout : readLayout b = .ok l) (hb : headerSize ≤ b.length) :
    read b = fieldsIn l b := by
  rw [read, hlayout]
  exact if_neg (Nat.not_lt.2 hb)

theorem fieldsIn_bodyLength {header : Header} (h : fieldsIn l b = .ok header) :
    header.bodyLength = l.bodyLength b := by
  unfold fieldsIn at h
  split at h
  · cases h
  · split at h
    · cases h
    · split at h
      · cases h
      · exact (Except.ok.inj h) ▸ rfl

/-- Nothing but an id can be wrong with the fields. -/
theorem fieldsIn_error {e : FrameError} (h : fieldsIn l b = .error e) : e.Skips := by
  unfold fieldsIn at h
  split at h
  · exact Except.error.inj h ▸ .serializer _
  · split at h
    · exact Except.error.inj h ▸ .type _
    · split at h
      · exact Except.error.inj h ▸ .status _
      · cases h

end Header

/-! ### The reading of a frame that is all there -/

namespace Frame
variable {l : Layout} {b : Bytes}

/-- Of a frame cut where its header says nothing but an id can be wrong, and its body is as long as
it was said to be. -/
theorem decode_whole (hlayout : Header.readLayout b = .ok l)
    (hb : b.length = headerSize + (l.bodyLength b).toNat) :
    (∃ e : FrameError, e.Skips ∧ Frame.decode b = .error e) ∨
      ∃ f : Frame, Frame.decode b = .ok f ∧ f.header.bodyLength = l.bodyLength b ∧
        f.body.length = f.header.bodyLength.toNat := by
  have hread := Header.read_eq_fieldsIn hlayout (by omega)
  cases hfields : Header.fieldsIn l b with
  | error e => exact .inl ⟨e, Header.fieldsIn_error hfields, by rw [decode, hread, hfields]⟩
  | ok header =>
    have hlength := Header.fieldsIn_bodyLength hfields
    refine .inr ⟨⟨header, (b.drop headerSize).take header.bodyLength.toNat⟩, ?_, hlength, ?_⟩
    · rw [decode, hread, hfields]
      exact if_neg (by rw [hlength]; omega)
    · simp only [List.length_take, List.length_drop, hlength, hb]
      omega

/-- A frame is only read from as many bytes as it announces. -/
theorem length_of_decode {f : Frame} (h : Frame.decode b = .ok f) :
    headerSize + Header.announced b ≤ b.length := by
  unfold decode Header.read at h
  cases hlayout : Header.readLayout b with
  | error e => simp [hlayout] at h
  | ok l =>
    rw [hlayout] at h
    by_cases hshort : b.length < headerSize
    · simp [if_pos hshort] at h
    · simp only [if_neg hshort] at h
      cases hfields : Header.fieldsIn l b with
      | error e => simp [hfields] at h
      | ok header =>
        simp only [hfields, Header.fieldsIn_bodyLength hfields] at h
        rw [Header.announced_of_layout hlayout]
        by_cases hlong : b.length < headerSize + (l.bodyLength b).toNat
        · simp [if_pos hlong] at h
        · omega

end Frame

namespace FrameStream
variable {maxBody : Nat} {b : Bytes}

/-! ### Parts and the rest -/

/-- What an item says of the part of the stream that it was made of. -/
def Tells (part : Bytes) : FrameItem → Prop
  | .ok f => Frame.decode part = .ok f ∧ f.body.length = f.header.bodyLength.toNat ∧
      f.header.bodyLength.toNat = Header.announced part
  | .error fault => Frame.decode part = .error fault.error ∧ fault.error.Skips ∧
      ∃ l, Header.readLayout part = .ok l ∧ fault.requestId = some (l.requestId part)

/-- A part of a stream that an item took: a header and the body that it announces. -/
structure Passed (maxBody : Nat) (part : Bytes) (item : FrameItem) : Prop where
  length : part.length = headerSize + Header.announced part
  bounded : Header.announced part ≤ maxBody
  tells : Tells part item

/-- Bytes that wait for more: fewer than a header and the longest body are, fewer than the header
in front of them asks for, and no frame. -/
structure Unfinished (maxBody : Nat) (b : Bytes) : Prop where
  bounded : b.length < headerSize + maxBody
  short : b.length < headerSize + Header.announced b
  frameless : ∀ f, Frame.decode b ≠ .ok f

/-- Items took all bytes but those that are kept, each a header and as many as it announces. -/
def Keeps (maxBody : Nat) (bytes : Bytes) (items : List FrameItem) (kept : Bytes) : Prop :=
  Unfinished maxBody kept ∧ ∃ parts, List.Forall₂ (Passed maxBody) parts items ∧
    bytes = parts.flatten ++ kept ∧
    kept = bytes.drop (parts.map fun part => headerSize + Header.announced part).sum

/-- No frame can be read from fewer bytes than its header announces. -/
theorem Unfinished.of_short (hbounded : b.length < headerSize + maxBody)
    (hshort : b.length < headerSize + Header.announced b) : Unfinished maxBody b :=
  ⟨hbounded, hshort, fun _ hdecode => Nat.not_lt.2 (Frame.length_of_decode hdecode) hshort⟩

/-- What one look says of the bytes in front of it. -/
def Scan.Right (maxBody : Nat) (b : Bytes) : Scan → Prop
  | wait => Unfinished maxBody b
  | item result size => Passed maxBody (b.take size) result
  | poison fault => fault.error.Breaks

/-- A header whose body is not too long is waited for, or passed with what it announces. -/
theorem scanFrame_right {l : Layout} (hlayout : Header.readLayout b = .ok l)
    (hheader : headerSize ≤ b.length) (hmax : (l.bodyLength b).toNat ≤ maxBody) :
    (scanFrame l b).Right maxBody b := by
  have hannounced := Header.announced_of_layout hlayout
  rw [scanFrame]
  split
  · exact .of_short (by omega) (by omega)
  next htotal =>
  obtain ⟨part, rest, rfl, hlength⟩ : ∃ part rest, part ++ rest = b ∧
      part.length = headerSize + (l.bodyLength b).toNat :=
    ⟨_, _, List.take_append_drop _ b, List.length_take_of_le (by omega)⟩
  -- What the looks see in all the bytes stands in the part that is cut off.
  have hpart : headerSize ≤ part.length := by omega
  have hlayout' : Header.readLayout part = .ok l := by
    rw [← Header.readLayout_append rest, hlayout]
    intro expected actual herror
    obtain ⟨hshort, -⟩ | hbreaks := Header.readLayout_error herror
    · omega
    · cases hbreaks
  rw [l.bodyLength_append hpart] at hlength hmax ⊢
  rw [l.requestId_append hpart, ← hlength, List.take_left]
  have hannounced' := Header.announced_of_layout hlayout'
  have hpassed {item : FrameItem} (htells : Tells part item) :
      Scan.Right maxBody (part ++ rest) (.item item part.length) := by
    rw [Scan.Right, List.take_left]
    exact ⟨by omega, by omega, htells⟩
  obtain ⟨e, hskips, hdecode⟩ | ⟨f, hdecode, hfield, hbody⟩ := Frame.decode_whole hlayout' hlength
  · rw [hdecode]
    exact hpassed ⟨hdecode, hskips, l, hlayout', rfl⟩
  · rw [hdecode]
    exact hpassed ⟨hdecode, hbody, by rw [hfield, hannounced']⟩

/-- **A look is right**: it waits for nothing that is there, passes nothing that is not, and gives
up on headers only. -/
theorem scan_right (maxBody : Nat) (b : Bytes) : (scan maxBody b).Right maxBody b := by
  rw [scan]
  split
  · next hlayout =>
    obtain ⟨hshort, -⟩ | hbreaks := Header.readLayout_error hlayout
    · exact .of_short (by omega) (by omega)
    · cases hbreaks
  · next e hnot hlayout =>
    obtain ⟨-, expected, actual, rfl⟩ | hbreaks := Header.readLayout_error hlayout
    · exact absurd rfl (hnot expected actual)
    · exact hbreaks
  · next l hlayout =>
    split
    · exact .of_short (by omega) (by omega)
    · split
      · exact .tooLong _ _
      · exact scanFrame_right hlayout (by omega) (by omega)

/-! ### All the looks -/

/-- Items and one error more, behind which nothing is kept: the error is what ends the frames, and
the items took the bytes in front of it. -/
def Loses (maxBody : Nat) (bytes : Bytes) (before items : List FrameItem) : Prop :=
  ∃ passed fault, items = passed ++ [.error fault] ∧ fault.error.Breaks ∧
    ∃ parts dropped, List.Forall₂ (Passed maxBody) parts (before ++ passed) ∧
      bytes = parts.flatten ++ dropped

/-- The parts that items took stand in front of what is kept. -/
theorem Keeps.intro {bytes kept : Bytes} {parts : List Bytes} {items : List FrameItem}
    (hkept : Unfinished maxBody kept) (hparts : List.Forall₂ (Passed maxBody) parts items)
    (hbytes : bytes = parts.flatten ++ kept) : Keeps maxBody bytes items kept := by
  refine ⟨hkept, parts, hparts, hbytes, ?_⟩
  have htaken : (parts.map fun part => headerSize + Header.announced part).sum =
      parts.flatten.length := by
    rw [List.length_flatten]
    clear hbytes
    induction hparts with
    | nil => rfl
    | cons hpassed _ ih => simp only [List.map_cons, List.sum_cons, ih, hpassed.length]
  rw [htaken, hbytes, List.drop_left]

/-- What is left of some bytes, behind items that took the bytes in front of them. -/
def Rest.Right (maxBody : Nat) (bytes : Bytes) (before : List FrameItem) (rest : Rest) : Prop :=
  (rest.poisoned = false → Keeps maxBody bytes (before ++ rest.items) rest.kept) ∧
    (rest.poisoned = true → rest.kept = [] ∧ Loses maxBody bytes before rest.items)

/-- **Draining takes part after part**, by induction on the bytes that are left. -/
theorem drain_right {parts : List Bytes} {before : List FrameItem}
    (hparts : List.Forall₂ (Passed maxBody) parts before) (b : Bytes) :
    (drain maxBody b).Right maxBody (parts.flatten ++ b) before := by
  fun_induction drain maxBody b generalizing parts before with
  | case1 b hscan =>
    have hright := scan_right maxBody b
    rw [hscan] at hright
    refine ⟨fun _ => ?_, (by cases ·)⟩
    rw [List.append_nil]
    exact .intro hright hparts rfl
  | case2 b fault hscan =>
    have hright := scan_right maxBody b
    rw [hscan] at hright
    refine ⟨(by cases ·), fun _ => ⟨rfl, [], fault, rfl, hright, parts, b, ?_, rfl⟩⟩
    rwa [List.append_nil]
  | case3 b item n hscan rest =>
    rename_i ih
    have hright := scan_right maxBody b
    rw [hscan] at hright
    have hmore := ih (List.rel_append hparts (.cons hright .nil))
    rw [List.flatten_append, List.flatten_singleton, List.append_assoc,
      List.take_append_drop] at hmore
    refine ⟨fun hp => ?_, fun hp => ?_⟩
    · rw [List.append_cons]
      exact hmore.1 hp
    · obtain ⟨hkept, passed, fault, hitems, hbreaks, hrest⟩ := hmore.2 hp
      refine ⟨hkept, item :: passed, fault, congrArg (item :: ·) hitems, hbreaks, ?_⟩
      rwa [List.append_cons]

/-! ### Call after call -/

/-- A stream that has been fed some bytes and yielded some items for them. -/
structure Fed (maxBody : Nat) (bytes : Bytes) (items : List FrameItem) (s : FrameStream) : Prop where
  limit : s.maxBody = maxBody
  sound : s.poisoned = false → Keeps maxBody bytes items s.kept
  poisoned : s.poisoned = true → s.kept = []

variable {bytes : Bytes} {items : List FrameItem} {s : FrameStream}

/-- A sound stream keeps on cutting behind what it kept. -/
theorem Fed.drain_right (h : Fed maxBody bytes items s) (hp : s.poisoned = false) (chunk : Bytes) :
    (drain s.maxBody (s.kept ++ chunk)).Right maxBody (bytes ++ chunk) items := by
  obtain ⟨-, parts, hparts, hbytes, -⟩ := h.sound hp
  rw [h.limit, hbytes, List.append_assoc]
  exact FrameStream.drain_right hparts _

theorem Fed.feed (h : Fed maxBody bytes items s) (chunk : Bytes) :
    Fed maxBody (bytes ++ chunk) (items ++ (s.feed chunk).1) (s.feed chunk).2 := by
  unfold FrameStream.feed
  by_cases hp : s.poisoned = true
  · rw [if_pos hp]
    refine ⟨h.limit, fun hsound => ?_, h.poisoned⟩
    rw [hp] at hsound
    cases hsound
  · rw [if_neg hp]
    have hright := h.drain_right (Bool.eq_false_iff.2 hp) chunk
    exact ⟨h.limit, hright.1, fun hpoisoned => (hright.2 hpoisoned).1⟩

theorem Fed.feedAll (h : Fed maxBody bytes items s) (chunks : List Bytes) :
    Fed maxBody (bytes ++ chunks.flatten) (items ++ (s.feedAll chunks).1.flatten)
      (s.feedAll chunks).2 := by
  induction chunks generalizing bytes items s with
  | nil => simpa [FrameStream.feedAll] using h
  | cons chunk rest ih => simpa [FrameStream.feedAll] using ih (h.feed chunk)

theorem fed_new (maxBody : Nat) : Fed maxBody [] [] (new maxBody) :=
  ⟨rfl, fun _ => .intro (scan_right maxBody []) .nil rfl, fun _ => rfl⟩

/-- **A stream holds back what it cannot judge, and no more.** After each call of a decoder that is
not poisoned, items took all bytes so far but those that are kept, each a header and the body it
announces; what is kept is shorter than a header and the longest body and holds no frame. The call
that poisons yields one error more, about a header. From then on nothing is kept, and each call
brings the one news of it and changes nothing. -/
theorem feedAll_retained (maxBody : Nat) (chunks : List Bytes) (chunk : Bytes) :
    let before := (new maxBody).feedAll chunks
    let call := before.2.feed chunk
    let bytes := (chunks ++ [chunk]).flatten
    (call.2.poisoned = false → Keeps maxBody bytes (before.1.flatten ++ call.1) call.2.kept) ∧
      (call.2.poisoned = true → call.2.kept = [] ∧
        (before.2.poisoned = false → Loses maxBody bytes before.1.flatten call.1)) ∧
      (before.2.poisoned = true → call = ([.error ⟨none, .streamPoisoned⟩], before.2)) := by
  intro before call bytes
  have hfed : Fed maxBody chunks.flatten before.1.flatten before.2 := (fed_new maxBody).feedAll chunks
  have hbytes : bytes = chunks.flatten ++ chunk := by simp [bytes]
  have hcall := hfed.feed chunk
  rw [← hbytes] at hcall
  refine ⟨hcall.sound, fun hp => ⟨hcall.poisoned hp, fun hsound => ?_⟩, fun hp => if_pos hp⟩
  have hright := hfed.drain_right hsound chunk
  rw [← hbytes] at hright
  have hdrain : call = _ := if_neg (ne_true_of_eq_false hsound)
  rw [hdrain] at hp ⊢
  exact (hright.2 hp).2

end FrameStream
end RemoteCall
