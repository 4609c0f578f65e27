import RemoteCall.Frame.Codec

/-! Frames out of a byte stream that arrives in chunks.

The decoder keeps the bytes it cannot judge yet. One `scan` of the kept bytes does one
thing: it waits for more, passes one frame (or one frame whose ids are unknown, which
can be skipped since its length is known), or finds that the frame boundaries are lost.
From then on the stream is poisoned and yields nothing but that news. -/
namespace RemoteCall

/-- Default limit on the body of a received frame: 16 MiB. -/
def defaultMaxBody : Nat := 16 * 1024 * 1024

/-- A frame that could not be decoded, and whose call it was if that could be read. -/
structure FrameFault where
  requestId : Option UInt64
  error : FrameError
  deriving DecidableEq, Repr, Inhabited

/-- What a stream yields. -/
abbrev FrameItem := Except FrameFault Frame

namespace FrameStream

/-! ### One look at the kept bytes -/

/-- What the front of the kept bytes turns out to be. -/
inductive Scan where
  /-- Nothing can be said before more bytes come. -/
  | wait
  /-- An item that takes the first `size` bytes. -/
  | item (result : FrameItem) (size : Nat)
  /-- The boundaries of the frames are lost. -/
  | poison (fault : FrameFault)

/-- A body no longer than the limit: pass the frame, or its fault, if it is all there. -/
def scanFrame (l : Layout) (b : Bytes) : Scan :=
  let total := headerSize + (l.bodyLength b).toNat
  if b.length < total then .wait
  else match Frame.decode (b.take total) with
    | .ok frame => .item (.ok frame) total
    | .error e => .item (.error ⟨some (l.requestId b), e⟩) total

/-- Magic and version are judged before the header is complete, the length of the body
before the body is. -/
def scan (maxBody : Nat) (b : Bytes) : Scan :=
  match Header.readLayout b with
  | .error (.truncated _ _) => .wait
  | .error e => .poison ⟨none, e⟩
  | .ok l =>
    if b.length < headerSize then .wait
    else if maxBody < (l.bodyLength b).toNat then
      .poison ⟨some (l.requestId b), .bodyTooLarge (l.bodyLength b).toNat maxBody⟩
    else scanFrame l b

theorem scanFrame_size {l : Layout} {b : Bytes} {r : FrameItem} {n : Nat}
    (h : scanFrame l b = .item r n) : 0 < n ∧ n ≤ b.length := by
  have : 0 < headerSize := by decide
  simp only [scanFrame] at h
  by_cases hb : b.length < headerSize + (l.bodyLength b).toNat
  · simp [hb] at h
  · rw [if_neg hb] at h
    split at h <;> cases h <;> omega

/-- An item takes at least one byte, and no more than there are. -/
theorem scan_size {maxBody : Nat} {b : Bytes} {r : FrameItem} {n : Nat}
    (h : scan maxBody b = .item r n) : 0 < n ∧ n ≤ b.length := by
  unfold scan at h
  split at h
  · cases h
  · cases h
  · split at h
    · cases h
    · split at h
      · cases h
      · exact scanFrame_size h

/-! ### Everything the kept bytes hold -/

/-- What is left after all complete items have been taken. -/
structure Rest where
  items : List FrameItem
  kept : Bytes
  poisoned : Bool

/-- Takes items until the bytes run out, more are needed, or the boundaries are lost. -/
def drain (maxBody : Nat) (b : Bytes) : Rest :=
  match _h : scan maxBody b with
  | .wait => ⟨[], b, false⟩
  | .poison fault => ⟨[.error fault], [], true⟩
  | .item r n =>
    let rest := drain maxBody (b.drop n)
    ⟨r :: rest.items, rest.kept, rest.poisoned⟩
termination_by b.length
decreasing_by
  have := scan_size _h
  simp only [List.length_drop]
  omega

end FrameStream

/-! ### The decoder -/

/-- A decoder between two chunks. -/
structure FrameStream where
  maxBody : Nat
  kept : Bytes
  poisoned : Bool
  deriving DecidableEq, Repr, Inhabited

namespace FrameStream

def new (maxBody : Nat) : FrameStream := ⟨maxBody, [], false⟩

/-- Feeds one chunk and yields what it completes. -/
def feed (s : FrameStream) (chunk : Bytes) : List FrameItem × FrameStream :=
  if s.poisoned then ([.error ⟨none, .streamPoisoned⟩], s)
  else
    let rest := drain s.maxBody (s.kept ++ chunk)
    (rest.items, { s with kept := rest.kept, poisoned := rest.poisoned })

/-- Feeds chunk after chunk, with the items of each. -/
def feedAll (s : FrameStream) : List Bytes → List (List FrameItem) × FrameStream
  | [] => ([], s)
  | chunk :: rest =>
    let (items, s) := s.feed chunk
    let (more, s) := s.feedAll rest
    (items :: more, s)

end FrameStream
end RemoteCall
