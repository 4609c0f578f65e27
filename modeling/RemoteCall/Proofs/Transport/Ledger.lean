import RemoteCall.Proofs.Pool.Growth
import RemoteCall.Proofs.Transport.Tickets

/-! What a client keeps right, whatever comes in.

A client does not know which answers are right. It knows that it gives a call only what
came in under the call's id: if every response that comes in fits the id it comes in under,
so does every response that a call ends with (`Ledger`). And it writes on a connection only
the messages of calls to the address that the connection leads to.

Every step is followed change by change, from a client `base` that the step starts from
(`Moves`): the ledger stays in order, and what was written, asked or given up before stays
so. -/
namespace RemoteCall.Transport

/-- What a call is about. -/
structure Letter where
  address : String
  message : Message

def ClientCall.letter (call : ClientCall) : Letter := ⟨call.address, call.message⟩

/-- The connection that a call has its ticket with. -/
def CallPhase.connection? : CallPhase → Option ConnectionId
  | registered _ c _ | checked _ c _ | queued _ c _ | waiting c _ => some c
  | starting | acquiring _ | ended _ | abandoned => none

/-- An association list with one entry put in front of the others. -/
theorem lookup_put {α : Type} (c d : Nat) (x : α) (l : List (Nat × α)) :
    ((c, x) :: l.filter fun (e, _) => e ≠ c).lookup d = if d = c then some x else l.lookup d := by
  rw [List.lookup_cons]
  by_cases h : d = c
  · simp [h]
  · rw [if_neg h]
    have hne : (d == c) = false := by simpa using h
    rw [hne]
    induction l with
    | nil => rfl
    | cons e rest ih =>
      obtain ⟨k, y⟩ := e
      rw [List.filter_cons]
      by_cases hk : k = c
      · have hdk : (d == k) = false := by simpa [hk] using h
        simpa [hk, List.lookup_cons, hne] using ih
      · simp only [hk, ne_eq, not_false_eq_true, decide_true, if_true, List.lookup_cons]
        split
        · rfl
        · exact ih

namespace Client

def letters (cl : Client) : List Letter := cl.calls.map ClientCall.letter

theorem wire_setWire (cl : Client) (c d : ConnectionId) (w : Wire) :
    (cl.setWire c w).wire d = if d = c then w else cl.wire d := by
  unfold wire setWire
  rw [lookup_put]
  split <;> rfl

theorem wire_setWire_self (cl : Client) (c : ConnectionId) (w : Wire) :
    (cl.setWire c w).wire c = w := by rw [wire_setWire, if_pos rfl]

theorem letters_setPhase (cl : Client) (n : CallId) (phase : CallPhase) :
    (cl.setPhase n phase).letters = cl.letters :=
  map_modify_of_eq (fun call : ClientCall => { call with phase := phase }) _ (fun _ => rfl) _ _

/-! ### The ledger -/

/-- A frame on a connection is the message of a call to where the connection leads. -/
def Posted (cl : Client) (c : ConnectionId) (b : Bytes) : Prop :=
  ∃ letter ∈ cl.letters, letter.message.encode = .ok b ∧ cl.pool.Leads c letter.address

structure Ledger (fits : UInt64 → Response → Prop) (cl : Client) : Prop where
  sound : cl.pool.Sound
  addressed : cl.pool.Addressed
  /-- Calls have the ids 1, 2, 3 and so on. -/
  numbered : ∀ (n : CallId) (letter : Letter), cl.letters[n]? = some letter →
    ∃ wish : Wish, letter.message =
      wish.message cl.config.layout cl.config.serializer (UInt64.ofNat (n + 1))
  next : cl.ids.next = UInt64.ofNat (cl.letters.length + 1)
  tickets : Tickets fits cl.calls cl.pending
  ended : ∀ call ∈ cl.calls, ∀ a, call.phase = .ended a → a.Fits fits call.id
  asking : ∀ call ∈ cl.calls, ∀ a, call.phase = .acquiring a →
    ∃ x, cl.pool.attempts[a]? = some x ∧ x.address = call.address
  leading : ∀ call ∈ cl.calls, ∀ c, call.phase.connection? = some c →
    cl.pool.Leads c call.address
  posted : ∀ c, ∀ b, b ∈ (cl.wire c).queue ∨ b ∈ (cl.wire c).written → cl.Posted c b
  inbox : ∀ c f, .ok f ∈ (cl.wire c).inbox →
    Answer.Fits fits f.header.requestId (Message.ofFrame f)

/-- What does not change, or only grows, from `base` to `cl`. -/
structure Follows (base cl : Client) : Prop where
  config : cl.config = base.config
  letters : base.letters <+: cl.letters
  grows : base.pool.Grows cl.pool
  decoder : ∀ c, (cl.wire c).decoder = (base.wire c).decoder
  written : ∀ c, (base.wire c).written <+: (cl.wire c).written
  reading : ∀ c, (base.wire c).reading = false → (cl.wire c).reading = false

structure Moves (fits : UInt64 → Response → Prop) (base cl : Client) : Prop
    extends Ledger fits cl, Follows base cl

variable {fits fits' : UInt64 → Response → Prop} {base cl : Client} {n : CallId}
  {call : ClientCall} {a : AttemptId} {c : ConnectionId} {t : TicketId}

theorem Ledger.mono (h : Ledger fits cl) (hfits : ∀ id r, fits id r → fits' id r) :
    Ledger fits' cl :=
  { h with
    tickets := h.tickets.mono hfits
    ended := fun call hc a ha m r hm hr => hfits _ _ (h.ended call hc a ha m r hm hr)
    inbox := fun c f hf m r hm hr => hfits _ _ (h.inbox c f hf m r hm hr) }

theorem Follows.refl (cl : Client) : Follows cl cl :=
  ⟨rfl, List.prefix_rfl, .refl _, fun _ => rfl, fun _ => List.prefix_rfl, fun _ => id⟩

theorem ledger_new (config : TransportConfig) : Ledger fits (.new config) where
  sound := Pool.sound_empty _
  addressed := Pool.addressed_empty _
  numbered n letter h := by simp [Client.new, letters] at h
  next := rfl
  tickets := .empty
  ended _ h := by cases h
  asking _ h := by cases h
  leading _ h := by cases h
  posted c b h := by rcases h with h | h <;> cases h
  inbox c f h := by cases h

/-! ### One change -/

namespace Moves

theorem start (h : Ledger fits cl) : Moves fits cl cl := ⟨h, .refl cl⟩

theorem poolStep (h : Moves fits base cl) (action : Pool.Action) :
    Moves fits base (cl.poolStep action) := by
  have hgrows := Pool.Grows.step h.sound action
  refine ⟨⟨h.sound.step action, h.addressed.step h.sound action, h.numbered, h.next, h.tickets,
    h.ended, fun call hc a ha => ?_, fun call hc c ha => hgrows.leads (h.leading call hc c ha),
    fun c b hb => ?_, h.inbox⟩,
    ⟨h.config, h.letters, h.grows.trans hgrows, h.decoder, h.written, h.reading⟩⟩
  · obtain ⟨x, hx, haddress⟩ := h.asking call hc a ha
    obtain ⟨y, hy, hyx⟩ := hgrows.attempts a x hx
    exact ⟨y, hy, hyx.trans haddress⟩
  · obtain ⟨letter, hletter, hencode, hleads⟩ := h.posted c b hb
    exact ⟨letter, hletter, hencode, hgrows.leads hleads⟩

theorem setPending (h : Moves fits base cl) {pending : Pending}
    (ht : Tickets fits cl.calls pending) : Moves fits base { cl with pending := pending } :=
  ⟨⟨h.sound, h.addressed, h.numbered, h.next, ht, h.ended, h.asking, h.leading, h.posted,
    h.inbox⟩, ⟨h.config, h.letters, h.grows, h.decoder, h.written, h.reading⟩⟩

theorem setClosing (h : Moves fits base cl) (closing : Closing) :
    Moves fits base { cl with closing := closing } :=
  ⟨⟨h.sound, h.addressed, h.numbered, h.next, h.tickets, h.ended, h.asking, h.leading, h.posted,
    h.inbox⟩, ⟨h.config, h.letters, h.grows, h.decoder, h.written, h.reading⟩⟩

/-- A call goes on, with the table as it is for the new phase. -/
theorem goOn (h : Moves fits base cl) (hn : cl.calls[n]? = some call) {phase : CallPhase}
    (pending : Pending) (ht : Tickets fits (cl.setPhase n phase).calls pending)
    (ended : ∀ answer, phase = .ended answer → answer.Fits fits call.id)
    (asking : ∀ a, phase = .acquiring a →
      ∃ x, cl.pool.attempts[a]? = some x ∧ x.address = call.address)
    (leading : ∀ c, phase.connection? = some c → cl.pool.Leads c call.address) :
    Moves fits base ({ cl with pending := pending }.setPhase n phase) := by
  have hletters := letters_setPhase { cl with pending := pending } n phase
  refine ⟨⟨h.sound, h.addressed, fun m letter hm => h.numbered m letter (hletters ▸ hm),
    hletters ▸ h.next, ht, fun other hc => ?_, fun other hc => ?_, fun other hc => ?_,
    fun c b hb => ?_, h.inbox⟩,
    ⟨h.config, hletters ▸ h.letters, h.grows, h.decoder, h.written, h.reading⟩⟩
  · obtain hc | rfl := mem_modify hn hc
    · exact h.ended other hc
    · exact ended
  · obtain hc | rfl := mem_modify hn hc
    · exact h.asking other hc
    · exact asking
  · obtain hc | rfl := mem_modify hn hc
    · exact h.leading other hc
    · exact leading
  · obtain ⟨letter, hletter, hrest⟩ := h.posted c b hb
    exact ⟨letter, hletters ▸ hletter, hrest⟩

/-- A call comes to its end without a response. -/
theorem stop (h : Moves fits base cl) (hn : cl.calls[n]? = some call) {phase : CallPhase}
    (hphase : phase = .abandoned ∨ ∃ e, phase = .ended (.error e)) :
    Moves fits base (cl.setPhase n phase) := by
  refine h.goOn hn cl.pending (h.tickets.setPhase hn fun t ht => ?_)
    (fun answer he => ?_) (fun a ha => ?_) fun c hc => ?_
  · obtain rfl | ⟨e, rfl⟩ := hphase <;> cases ht
  · obtain rfl | ⟨e, rfl⟩ := hphase
    · cases he
    · obtain rfl := CallPhase.ended.inj he
      exact Answer.fits_error fits call.id e
  · obtain rfl | ⟨e, rfl⟩ := hphase <;> cases ha
  · obtain rfl | ⟨e, rfl⟩ := hphase <;> cases hc

/-- A call goes on with its ticket. -/
theorem keepTicket (h : Moves fits base cl) (hn : cl.calls[n]? = some call) {phase : CallPhase}
    (hticket : phase.ticket? = call.phase.ticket?)
    (hconnection : phase.connection? = call.phase.connection?) (hsome : phase.ticket?.isSome) :
    Moves fits base (cl.setPhase n phase) := by
  refine h.goOn hn cl.pending (h.tickets.setPhase hn fun t ht => hticket ▸ ht)
    (fun answer he => ?_) (fun a ha => ?_) fun c hc => ?_
  · rw [he] at hsome
    cases hsome
  · rw [ha] at hsome
    cases hsome
  · exact h.leading call (List.mem_of_getElem? hn) c (hconnection ▸ hc)

theorem setWire (h : Moves fits base cl) {w : Wire}
    (decoder : w.decoder = (cl.wire c).decoder) (written : (cl.wire c).written <+: w.written)
    (reading : (cl.wire c).reading = false → w.reading = false)
    (posted : ∀ b, b ∈ w.queue ∨ b ∈ w.written → cl.Posted c b)
    (inbox : ∀ f, .ok f ∈ w.inbox → .ok f ∈ (cl.wire c).inbox) :
    Moves fits base (cl.setWire c w) := by
  refine ⟨⟨h.sound, h.addressed, h.numbered, h.next, h.tickets, h.ended, h.asking, h.leading,
    fun d b hb => ?_, fun d f hf => ?_⟩,
    ⟨h.config, h.letters, h.grows, fun d => ?_, fun d => ?_, fun d hd => ?_⟩⟩
  · rw [wire_setWire] at hb
    split at hb
    · next hdc => exact hdc ▸ posted b hb
    · exact h.posted d b hb
  · rw [wire_setWire] at hf
    split at hf
    · next hdc => exact h.inbox d f (hdc ▸ inbox f hf)
    · exact h.inbox d f hf
  · rw [wire_setWire]
    split
    · next hdc => rw [decoder, ← hdc, h.decoder]
    · exact h.decoder d
  · rw [wire_setWire]
    split
    · next hdc => exact hdc ▸ (h.written c).trans written
    · exact h.written d
  · rw [wire_setWire]
    split
    · next hdc => exact reading (hdc ▸ h.reading d hd)
    · exact h.reading d hd

end Moves
end Client
end RemoteCall.Transport
