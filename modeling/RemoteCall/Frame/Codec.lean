import RemoteCall.Frame.Header

/-! Whole frames: a header and the body it announces.

Writing always announces the real length of the body, whatever the header holds.
Reading takes exactly the announced bytes and ignores what follows. -/
namespace RemoteCall

structure Frame where
  header : Header
  body : Bytes
  deriving DecidableEq, Repr, Inhabited

/-- The longest body whose length fits the header field. -/
def maxFrameBody : Nat := 0xFFFFFFFF

namespace Frame

/-- A frame whose header announces the body's length. -/
def new (header : Header) (body : Bytes) : Frame :=
  { header := { header with bodyLength := UInt32.ofNat body.length }, body := body }

def encode (f : Frame) : Except FrameError Bytes :=
  if maxFrameBody < f.body.length then .error (.bodyTooLarge f.body.length maxFrameBody)
  else (new f.header f.body).header.write.map (· ++ f.body)

/-- Reads one frame from the front of the bytes. -/
def decode (b : Bytes) : Except FrameError Frame :=
  match Header.read b with
  | .error e => .error e
  | .ok header =>
    let total := headerSize + header.bodyLength.toNat
    if b.length < total then .error (.truncated total b.length)
    else .ok { header := header, body := (b.drop headerSize).take header.bodyLength.toNat }

end Frame
end RemoteCall
