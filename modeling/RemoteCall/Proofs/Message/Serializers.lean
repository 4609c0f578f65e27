import RemoteCall.Message.Codec
import RemoteCall.Proofs.Columnar.RoundTrip
import RemoteCall.Proofs.Json.RoundTrip

/-! Serializers read the messages that they write.

Two things can stand between a value and its text: a part that is too long to be written, and an
absent value that is written like a present one. Neither is met in a request or a response that a
frame can hold, so each of the three formats reads back what it writes there
(`Serializer.faithful`). -/
namespace RemoteCall

/-- Whether a serializer reads back what it writes into a frame. -/
structure Serializer.Faithful (s : Serializer) : Prop where
  request : ∀ r : Request, (s.encode Request.shape r).length ≤ maxFrameBody →
    s.decode Request.shape (s.encode Request.shape r) = .ok r
  response : ∀ r : Response, (s.encode Response.shape r).length ≤ maxFrameBody →
    s.decode Response.shape (s.encode Response.shape r) = .ok r

/-! ### The native format -/

namespace Native

/-! A value that takes few bytes has no part that is too long to be written. -/

theorem fits_text {s : String} (h : (write .text s).length < Bytes.capacity 8) :
    Fits .text s := by
  rw [write, writeText, List.length_append] at h
  exact Nat.lt_of_le_of_lt (Nat.le_add_left _ _) h

theorem fits_list {α : Type} {item : Shape α} {xs : List α}
    (taken : ∀ x, 0 < (write item x).length)
    (fits : ∀ x, (write item x).length < Bytes.capacity 8 → Fits item x)
    (h : (write (.list item) xs).length < Bytes.capacity 8) : Fits (.list item) xs := by
  rw [write, List.length_append] at h
  have hall : (xs.flatMap (write item)).length < Bytes.capacity 8 :=
    Nat.lt_of_le_of_lt (Nat.le_add_left _ _) h
  have hcount : xs.length ≤ (xs.flatMap (write item)).length := by
    clear h hall
    induction xs with
    | nil => exact Nat.le_refl _
    | cons x rest ih =>
      have := taken x
      rw [List.flatMap_cons, List.length_append, List.length_cons]
      omega
  refine ⟨Nat.lt_of_le_of_lt hcount hall, fun x hx => fits x (Nat.lt_of_le_of_lt ?_ hall)⟩
  rw [List.flatMap_def]
  exact (List.sublist_flatten_of_mem (List.mem_map_of_mem hx)).length_le

theorem fits_option {α : Type} {s : Shape α} {x : Option α}
    (fits : ∀ x, (write s x).length < Bytes.capacity 8 → Fits s x)
    (h : (write (.option s) x).length < Bytes.capacity 8) : Fits (.option s) x := by
  cases x with
  | none => trivial
  | some x =>
    rw [write, List.length_cons] at h
    exact fits x (Nat.lt_of_succ_lt h)

theorem fits_bytes {b : Bytes} (h : (write Shape.bytes b).length < Bytes.capacity 8) :
    Fits Shape.bytes b := by
  refine fits_list (fun x => ?_) (fun x _ => ?_) h
  · exact Nat.one_pos
  · trivial

theorem fitsFields_cons {α β : Type} {name : String} {s : Shape α} {absent : Option α}
    {fields : Fields β} {x : α} {xs : β}
    (head : (write s x).length < Bytes.capacity 8 → Fits s x)
    (tail : (writeFields fields xs).length < Bytes.capacity 8 → FitsFields fields xs)
    (h : (writeFields (.cons name s absent fields) (x, xs)).length < Bytes.capacity 8) :
    FitsFields (.cons name s absent fields) (x, xs) := by
  rw [writeFields, List.length_append] at h
  exact ⟨head (Nat.lt_of_le_of_lt (Nat.le_add_right _ _) h),
    tail (Nat.lt_of_le_of_lt (Nat.le_add_left _ _) h)⟩

theorem fits_request {r : Request} (h : (write Request.shape r).length < Bytes.capacity 8) :
    Fits Request.shape r := by
  have htexts : (write (.list .text) r.parameterTypes).length < Bytes.capacity 8 →
      Fits (.list .text) r.parameterTypes := by
    refine fits_list (fun x => ?_) fun x => fits_text
    rw [write, writeText, writeLength, List.length_append, Bytes.length_ofNatLE]
    omega
  have hargs : (write (.list .bytes) r.args).length < Bytes.capacity 8 →
      Fits (.list .bytes) r.args := by
    refine fits_list (fun x => ?_) fun x => fits_bytes
    rw [Shape.bytes, write, writeLength, List.length_append, Bytes.length_ofNatLE]
    omega
  exact fitsFields_cons fits_text (fitsFields_cons fits_text (fitsFields_cons fits_text
    (fitsFields_cons htexts (fitsFields_cons hargs fun _ => trivial)))) h

theorem fits_response {r : Response} (h : (write Response.shape r).length < Bytes.capacity 8) :
    Fits Response.shape r := by
  have htext (x : Option String) : (write (.option .text) x).length < Bytes.capacity 8 →
      Fits (.option .text) x := fits_option fun _ => fits_text
  have hdata : (write (.option .bytes) r.data).length < Bytes.capacity 8 →
      Fits (.option .bytes) r.data := fits_option fun _ => fits_bytes
  exact fitsFields_cons hdata (fitsFields_cons (htext r.dataType) (fitsFields_cons fits_text
    (fitsFields_cons (htext r.fault) fun _ => trivial))) h

end Native

/-- **The native format reads back what it writes into a frame.** -/
theorem Serializer.faithful_native : Faithful .native := by
  have hbound {n : Nat} (hn : n ≤ maxFrameBody) : n < Bytes.capacity 8 :=
    Nat.lt_of_le_of_lt hn (by decide)
  refine ⟨fun r h => ?_, fun r h => ?_⟩
  · have hread := Native.decode_write (Native.fits_request (hbound h))
    rw [Serializer.encode, Serializer.decode, hread]
    rfl
  · have hread := Native.decode_write (Native.fits_response (hbound h))
    rw [Serializer.encode, Serializer.decode, hread]
    rfl

/-! ### JSON -/

namespace Json

/-- An absent text or byte string is the only one that is written as `null`. -/
theorem legible_option {α : Type} {s : Shape α} (hs : nullable s = false)
    (legible : ∀ x, Legible s x) (x : Option α) : Legible (.option s) x := by
  cases x with
  | none => trivial
  | some x => exact ⟨hs, legible x⟩

theorem legible_text (s : String) : Legible .text s := trivial

theorem legible_bytes (b : Bytes) : Legible Shape.bytes b := fun _ _ => trivial

theorem legible_request (r : Request) : Legible Request.shape r :=
  ⟨by decide, trivial, trivial, trivial, fun _ _ => trivial, fun b _ => legible_bytes b, trivial⟩

theorem legible_response (r : Response) : Legible Response.shape r :=
  ⟨by decide, legible_option rfl legible_bytes r.data, legible_option rfl legible_text r.dataType,
    trivial, legible_option rfl legible_text r.fault, trivial⟩

end Json

/-- **JSON reads back what it writes**, however long it is. -/
theorem Serializer.faithful_json : Faithful .json := by
  refine ⟨fun r _ => ?_, fun r _ => ?_⟩
  · rw [Serializer.encode, Serializer.decode, Json.decode_encode (Json.legible_request r)]
    rfl
  · rw [Serializer.encode, Serializer.decode, Json.decode_encode (Json.legible_response r)]
    rfl

/-! ### The columnar format -/

namespace Columnar

theorem bounded_request : Bounded Request.shape :=
  bounded_via <| bounded_record <|
    boundedFields_cons bounded_text <| boundedFields_cons bounded_text <|
    boundedFields_cons bounded_text <|
    boundedFields_cons (bounded_list weighs_text bounded_text) <|
    boundedFields_cons (bounded_list (weighs_list _) bounded_bytes) boundedFields_nil

theorem bounded_response : Bounded Response.shape :=
  bounded_via <| bounded_record <|
    boundedFields_cons (bounded_option bounded_bytes) <|
    boundedFields_cons (bounded_option bounded_text) <|
    boundedFields_cons bounded_text <|
    boundedFields_cons (bounded_option bounded_text) boundedFields_nil

end Columnar

/-- **The columnar format reads back what it writes into a frame.** -/
theorem Serializer.faithful_compact : Faithful .compact := by
  have hbound {n : Nat} (hn : n ≤ maxFrameBody) : 8 * n < Bytes.capacity 8 :=
    Nat.lt_of_le_of_lt (Nat.mul_le_mul_left 8 hn) (by decide)
  refine ⟨fun r h => ?_, fun r h => ?_⟩
  · have hread := Columnar.decode_encode_of_bounded Columnar.bounded_request (hbound h)
    rw [Serializer.encode, Serializer.decode, hread]
  · have hread := Columnar.decode_encode_of_bounded Columnar.bounded_response (hbound h)
    rw [Serializer.encode, Serializer.decode, hread]

/-- **Every serializer reads back what it writes into a frame.** -/
theorem Serializer.faithful (s : Serializer) : s.Faithful := by
  cases s with
  | native => exact faithful_native
  | json => exact faithful_json
  | compact => exact faithful_compact

end RemoteCall
