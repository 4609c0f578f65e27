import Mathlib.Algebra.Group.Nat.Defs
import RemoteCall.Proofs.Server.Replies
import RemoteCall.Proofs.Transport.Client
import RemoteCall.Transport.Exchange

/-! A call gets the response to its own request.

Between a call and its server stand a connection that it shares with others, a server that
answers in any order, and two streams that are cut anywhere. `Sane` is what stays true
whatever happens: what a server has received are messages of calls to its address, in full
up to where the bytes end; what it has written are answers to these; and what the client has
received are such answers (`Met`). So every answer that comes in under an id is the answer
to a call with this id (`Answers`), and ids are given out once. -/
namespace RemoteCall.Transport

/-! ### Right answers -/

/-- Whether a job is a call to an address. -/
def Asked (serializer : Serializer) (letters : List Letter) (address : String)
    (job : Server.Job) : Prop :=
  ∃ letter ∈ letters, letter.address = address ∧
    letter.message.header.requestId = job.header.requestId ∧
    job.header.serializer = serializer ∧ letter.message.body = .request job.request

/-- Whether a response is what the server of a call with an id makes of the call's request. -/
def Answers (network : Network) (serializer : Serializer) (letters : List Letter) (id : UInt64)
    (r : Response) : Prop :=
  ∃ letter ∈ letters, ∃ q listener, letter.message.header.requestId = id ∧
    letter.message.body = .request q ∧
    network.listeners.find? letter.address = some listener ∧
    r = (listener.endpoint.dispatch ⟨serializer, id⟩ q).2

theorem Asked.mono {serializer : Serializer} {letters letters' : List Letter} {address : String}
    {job : Server.Job} (h : Asked serializer letters address job) (hl : letters <+: letters') :
    Asked serializer letters' address job := by
  obtain ⟨letter, hletter, hrest⟩ := h
  exact ⟨letter, hl.subset hletter, hrest⟩

theorem Answers.mono {network : Network} {serializer : Serializer} {letters letters' : List Letter}
    {id : UInt64} {r : Response} (h : Answers network serializer letters id r)
    (hl : letters <+: letters') : Answers network serializer letters' id r := by
  obtain ⟨letter, hletter, hrest⟩ := h
  exact ⟨letter, hl.subset hletter, hrest⟩

/-- The handlers of a server make right answers of the calls to its address. -/
theorem answers_of_asked {network : Network} {serializer : Serializer} {letters : List Letter}
    {address : String} {listener : Listener} {job : Server.Job}
    (hasked : Asked serializer letters address job)
    (hfound : network.listeners.find? address = some listener) :
    Answers network serializer letters job.header.requestId
      (listener.endpoint.responseTo job) := by
  obtain ⟨letter, hletter, rfl, hid, hserializer, hbody⟩ := hasked
  refine ⟨letter, hletter, job.request, listener, hid, hbody, hfound, ?_⟩
  rw [Server.Endpoint.responseTo, hserializer]

/-! ### Streams that were heard in part -/

theorem take_flatten_grown {l l' : List Bytes} (h : l <+: l') {n : Nat}
    (hn : n ≤ l.flatten.length) : l'.flatten.take n = l.flatten.take n := by
  obtain ⟨more, rfl⟩ := h
  rw [List.flatten_append, List.take_append_of_le_length hn]

theorem length_flatten_grown {l l' : List Bytes} (h : l <+: l') :
    l.flatten.length ≤ l'.flatten.length := by
  obtain ⟨more, rfl⟩ := h
  rw [List.flatten_append, List.length_append]
  exact Nat.le_add_right _ _

/-- What was heard before and the next piece are what is heard then. -/
theorem take_heard (b : Bytes) (n count : Nat) :
    b.take (n + ((b.drop n).take count).length) = b.take n ++ (b.drop n).take count := by
  rw [List.take_add]
  congr 1
  rw [List.length_take]
  rcases Nat.le_total count (b.drop n).length with h | h
  · rw [Nat.min_eq_left h]
  · rw [Nat.min_eq_right h, List.take_length, List.take_of_length_le h]

theorem heard_le {b : Bytes} {n : Nat} (hn : n ≤ b.length) (count : Nat) :
    n + ((b.drop n).take count).length ≤ b.length := by
  rw [List.length_take, List.length_drop]
  omega

/-! ### Two ends of a connection -/

namespace Exchange

/-- What the two ends of a connection have to do with each other. -/
structure Met (network : Network) (cl : Client) (c : ConnectionId) (e : FarEnd)
    (listener : Listener) : Prop where
  found : network.listeners.find? e.address = some listener
  leads : cl.pool.Leads c e.address
  reached : cl.pool.Reached c 1
  heard : e.heard ≤ (cl.wire c).written.flatten.length
  decoder : e.connection.decoder =
    .after listener.maxBody ((cl.wire c).written.flatten.take e.heard)
  honest : e.connection.Honest (Asked cl.config.serializer cl.letters e.address) listener.endpoint
  told : e.told ≤ e.connection.replies.flatten.length
  /-- A client that takes no more bytes may have missed some. -/
  tells : cl.Deaf c ∨ (cl.wire c).decoder =
    .after cl.config.maxBody.toNat (e.connection.replies.flatten.take e.told)

/-- What stays true of an exchange with a network, in which some calls were begun before. -/
structure Sane (network : Network) (config : TransportConfig) (known : List Letter)
    (x : Exchange) : Prop where
  sameNetwork : x.network = network
  sameConfig : x.client.config = config
  known : known <+: x.client.letters
  ledger : x.client.Ledger (Answers network config.serializer x.client.letters)
  met : ∀ c e, x.farEnd? c = some e → ∃ listener, Met network x.client c e listener
  /-- Nothing has come in where nobody was met. -/
  fresh : ∀ c, x.farEnd? c = none → (x.client.wire c).decoder = .new config.maxBody.toNat

variable {network : Network} {config : TransportConfig} {known : List Letter} {x : Exchange}
  {base cl : Client} {c : ConnectionId} {e : FarEnd} {listener : Listener}

theorem farEnd?_setEnd (x : Exchange) (c d : ConnectionId) (e : FarEnd) :
    (x.setEnd c e).farEnd? d = if d = c then some e else x.farEnd? d :=
  lookup_put c d e x.ends

/-- A client that takes no more bytes on a connection will take none. -/
theorem deaf_follow (hdeaf : base.Deaf c) (hf : Client.Follows base cl) : cl.Deaf c := by
  obtain hreading | hpoisoned := hdeaf
  · exact .inl (hf.reading c hreading)
  · exact .inr (hf.decoder c ▸ hpoisoned)

theorem Met.follow (h : Met network base c e listener) (hf : Client.Follows base cl) :
    Met network cl c e listener := by
  refine ⟨h.found, hf.grows.leads h.leads, hf.grows.reached h.reached,
    Nat.le_trans h.heard (length_flatten_grown (hf.written c)), ?_, ?_, h.told, ?_⟩
  · rw [take_flatten_grown (hf.written c) h.heard]
    exact h.decoder
  · rw [hf.config]
    exact h.honest.mono fun job hjob => hjob.mono hf.letters
  · rw [hf.decoder, hf.config]
    exact h.tells.imp_left fun hdeaf => deaf_follow hdeaf hf

/-- A move of the client keeps everything in order. -/
theorem Sane.moves (h : Sane network config known x)
    (hm : Client.Moves (Answers network config.serializer x.client.letters) x.client cl) :
    Sane network config known { x with client := cl } := by
  refine ⟨h.sameNetwork, hm.config.trans h.sameConfig, h.known.trans hm.letters,
    hm.toLedger.mono fun id r hr => hr.mono hm.letters,
    fun c e he => ?_, fun c hc => ?_⟩
  · obtain ⟨listener, hmet⟩ := h.met c e he
    exact ⟨listener, hmet.follow hm.toFollows⟩
  · exact (hm.decoder c).trans (h.fresh c hc)

/-- The ends of a connection change together. -/
theorem Sane.setEnd (h : Sane network config known x) (listener : Listener)
    (hmet : Met network x.client c e listener) :
    Sane network config known (x.setEnd c e) := by
  refine ⟨h.sameNetwork, h.sameConfig, h.known, h.ledger, fun d f hf => ?_, fun d hd => ?_⟩
  · rw [farEnd?_setEnd] at hf
    split at hf
    · next hdc =>
      subst hdc
      obtain rfl := Option.some.inj hf
      exact ⟨listener, hmet⟩
    · exact h.met d f hf
  · rw [farEnd?_setEnd] at hd
    split at hd
    · cases hd
    · exact h.fresh d hd

/-- What a client has written are whole frames. -/
theorem Sane.whole (h : Sane network config known x) {letter : Letter}
    (hletter : letter ∈ x.client.letters) :
    letter.message.header.Canonical config.layout ∧
      letter.message.header.serializer = config.serializer := by
  obtain ⟨n, hn⟩ := List.getElem?_of_mem hletter
  obtain ⟨wish, hwish⟩ := h.ledger.numbered n letter hn
  rw [hwish, h.sameConfig]
  cases wish <;> exact ⟨Header.canonical_new _ _ _ _ _, rfl⟩

/-! ### Bytes on their way -/

/-- A frame that a server hears is the message of a call to its address. -/
theorem Sane.fine (h : Sane network config known x) (hmet : Met network x.client c e listener)
    {f : Frame} (hwhole : f.Whole)
    (hf : ∃ b ∈ (x.client.wire c).written, f.encode = .ok b) :
    Server.Connection.Fine (Asked config.serializer x.client.letters e.address) f := by
  obtain ⟨b, hb, hencode⟩ := hf
  obtain ⟨letter, hletter, hmessage, hleads⟩ := h.ledger.posted c b (.inr hb)
  obtain ⟨hcanonical, hserializer⟩ := h.whole hletter
  obtain ⟨htype, hframed⟩ := Message.encode_framed hmessage
  obtain rfl := hwhole.encode_inj (Message.whole_framed hcanonical) hencode hframed
  refine ⟨hwhole.canonical, fun hrequest => ?_⟩
  have hread := Message.ofFrame_framed hcanonical hmessage
  have hbody : letter.message.body.type = .request := htype.symm.trans hrequest
  cases hq : letter.message.body with
  | request q =>
    rw [hq] at hread
    exact ⟨_, q, hread, letter, hletter, hleads.unique hmet.leads, rfl, hserializer, hq⟩
  | response r => rw [hq] at hbody; cases hbody
  | heartBeat => rw [hq] at hbody; cases hbody

theorem Sane.written_whole (h : Sane network config known x) (c : ConnectionId) :
    ∀ b ∈ (x.client.wire c).written, ∃ g : Frame, g.Whole ∧ g.encode = .ok b := by
  intro b hb
  obtain ⟨letter, hletter, hmessage, _⟩ := h.ledger.posted c b (.inr hb)
  exact ⟨letter.message.framed, Message.whole_framed (h.whole hletter).1,
    (Message.encode_framed hmessage).2⟩

theorem Sane.deliver (h : Sane network config known x) (c : ConnectionId) (count : Nat) :
    Sane network config known (x.deliver c count) := by
  unfold Exchange.deliver
  split
  · next e he =>
    obtain ⟨listener, hmet⟩ := h.met c e he
    have hkeeps := Server.Connection.receive_keeps e.connection ((x.unheard c e).take count)
    refine h.setEnd listener ⟨hmet.found, hmet.leads, hmet.reached,
      heard_le hmet.heard count, ?_, hmet.honest.receive fun f hf => ?_,
      Nat.le_trans hmet.told (length_flatten_grown hkeeps.2), ?_⟩
    · rw [hkeeps.1, hmet.decoder, FrameStream.feed_after]
      dsimp only
      rw [unheard, take_heard]
    · rw [hmet.decoder] at hf
      obtain ⟨hwhole, hsent⟩ := FrameStream.mem_of_feed (h.written_whole c)
        (take_heard _ e.heard count ▸ List.take_prefix _ _) hf
      rw [h.sameConfig]
      exact h.fine hmet hwhole hsent
    · refine hmet.tells.imp_right fun htells => htells.trans ?_
      dsimp only
      rw [take_flatten_grown hkeeps.2 hmet.told]
  · exact h

theorem Sane.endpointAt (h : Sane network config known x) (hmet : Met network x.client c e listener) :
    x.endpointAt e.address = listener.endpoint := by
  rw [Exchange.endpointAt, h.sameNetwork, hmet.found]
  rfl

theorem Sane.finish (h : Sane network config known x) (c : ConnectionId) (n : Nat) :
    Sane network config known (x.finish c n) := by
  unfold Exchange.finish
  split
  · next e he =>
    obtain ⟨listener, hmet⟩ := h.met c e he
    rw [h.endpointAt hmet]
    have hkeeps := Server.Connection.finish_keeps listener.endpoint e.connection n
    refine h.setEnd listener ⟨hmet.found, hmet.leads, hmet.reached, hmet.heard,
      hkeeps.1.trans hmet.decoder, hmet.honest.finish n,
      Nat.le_trans hmet.told (length_flatten_grown hkeeps.2), ?_⟩
    refine hmet.tells.imp_right fun htells => htells.trans ?_
    dsimp only
    rw [take_flatten_grown hkeeps.2 hmet.told]
  · exact h

/-- A frame that a client is told holds a right answer under its id. -/
theorem Sane.right (h : Sane network config known x) (hmet : Met network x.client c e listener)
    {f : Frame} (hwhole : f.Whole)
    (hf : ∃ b ∈ e.connection.replies, f.encode = .ok b) :
    Answer.Fits (Answers network config.serializer x.client.letters) f.header.requestId
      (Message.ofFrame f) := by
  obtain ⟨b, hb, hencode⟩ := hf
  obtain ⟨m, ⟨⟨l, hcanonical⟩, hsays⟩, hmessage⟩ := hmet.honest.replies b hb
  obtain ⟨htype, hframed⟩ := Message.encode_framed hmessage
  obtain rfl := hwhole.encode_inj (Message.whole_framed hcanonical) hencode hframed
  intro other r hother hresponse
  have hbody : m.body.type = .response := by
    rw [← htype]
    exact (Message.type_of_ofFrame hother).symm.trans (by rw [hresponse]; rfl)
  cases hr : m.body with
  | request q => rw [hr] at hbody; cases hbody
  | heartBeat => rw [hr] at hbody; cases hbody
  | response s =>
    obtain ⟨job, hasked, hid, hserializer, rfl⟩ := hsays s hr
    rw [h.sameConfig] at hasked
    have hread := Message.ofFrame_framed hcanonical hmessage
    rw [hother, hr] at hread
    obtain rfl := Except.ok.inj hread
    obtain rfl := MessageBody.response.inj hresponse
    exact hid ▸ answers_of_asked hasked hmet.found

/-- Another connection is as it was. -/
theorem Met.other (h : Met network base c e listener) (hconfig : cl.config = base.config)
    (hpool : cl.pool = base.pool) (hletters : cl.letters = base.letters)
    (hwire : cl.wire c = base.wire c) : Met network cl c e listener := by
  refine ⟨h.found, hpool ▸ h.leads, hpool ▸ h.reached, hwire ▸ h.heard, hwire ▸ h.decoder, ?_,
    h.told, ?_⟩
  · rw [hconfig, hletters]
    exact h.honest
  · rw [hwire, hconfig]
    refine h.tells.imp_left fun hdeaf => ?_
    rw [Client.Deaf, hwire]
    exact hdeaf

/-- A client takes in what it is told. -/
theorem Sane.tell (h : Sane network config known x) (hmet : Met network x.client c e listener)
    (hnot : ¬ x.client.Deaf c) (count : Nat) :
    let chunk := (untold e).take count
    let fed : Exchange := { x with client := x.client.fed c chunk }
    Sane network config known (fed.setEnd c { e with told := e.told + chunk.length }) := by
  intro chunk fed
  have htells := hmet.tells.resolve_left hnot
  have hitems (f : Frame) (hf : .ok f ∈ ((x.client.wire c).decoder.feed chunk).1) :
      Answer.Fits (Answers network config.serializer x.client.letters) f.header.requestId
        (Message.ofFrame f) := by
    have hreplies (b : Bytes) (hb : b ∈ e.connection.replies) :
        ∃ g : Frame, g.Whole ∧ g.encode = .ok b := by
      obtain ⟨m, ⟨⟨l, hcanonical⟩, _⟩, hm⟩ := hmet.honest.replies b hb
      exact ⟨m.framed, Message.whole_framed hcanonical, (Message.encode_framed hm).2⟩
    rw [htells] at hf
    obtain ⟨hwhole, hsent⟩ := FrameStream.mem_of_feed hreplies
      (take_heard _ e.told count ▸ List.take_prefix _ _) hf
    exact h.right hmet hwhole hsent
  have hwire := Client.wire_setWire_self x.client c { x.client.wire c with
    inbox := ((x.client.wire c).decoder.feed chunk).1
    decoder := ((x.client.wire c).decoder.feed chunk).2 }
  have hothers {d : ConnectionId} (hd : d ≠ c) : fed.client.wire d = x.client.wire d := by
    show (x.client.setWire c _).wire d = _
    rw [Client.wire_setWire, if_neg hd]
  refine ⟨h.sameNetwork, h.sameConfig, h.known, h.ledger.feed hitems, fun d f hf => ?_,
    fun d hd => ?_⟩
  · rw [farEnd?_setEnd] at hf
    split at hf
    · next hdc =>
      subst hdc
      obtain rfl := Option.some.inj hf
      refine ⟨listener, hmet.found, hmet.leads, hmet.reached, ?_, ?_, hmet.honest,
        heard_le hmet.told count, .inr ?_⟩
      · exact (congrArg (·.written.flatten.length) hwire).symm ▸ hmet.heard
      · exact hmet.decoder.trans (congrArg (FrameStream.after listener.maxBody <|
          ·.written.flatten.take e.heard) hwire.symm)
      · refine (congrArg Wire.decoder hwire).trans ?_
        dsimp only
        rw [htells, FrameStream.feed_after]
        exact congrArg (FrameStream.after _) (take_heard _ e.told count).symm
    · next hdc =>
      obtain ⟨other, hother⟩ := h.met d f hf
      exact ⟨other, hother.other rfl rfl rfl (hothers hdc)⟩
  · rw [farEnd?_setEnd] at hd
    split at hd
    · cases hd
    · next hdc => exact (congrArg Wire.decoder (hothers hdc)).trans (h.fresh d hd)

theorem Sane.bring (h : Sane network config known x) (c : ConnectionId) (count : Nat) :
    Sane network config known (x.bring c count) := by
  unfold Exchange.bring
  split
  · next e he =>
    obtain ⟨listener, hmet⟩ := h.met c e he
    dsimp only
    split
    · next hinbox =>
      have hclient {cl : Client} (hcl : x.client.receive c ((untold e).take count) = cl) :
          x.clientStep (.receive c ((untold e).take count)) = { x with client := cl } :=
        congrArg (fun cl => ({ x with client := cl } : Exchange)) hcl
      obtain ⟨hdeaf, hsame⟩ | ⟨hnot, hfed⟩ := Client.receive_eq hinbox ((untold e).take count)
      · rw [hclient hsame]
        exact h.setEnd listener { hmet with
          told := heard_le hmet.told count
          tells := .inl hdeaf }
      · rw [hclient hfed]
        exact h.tell hmet hnot count
    · exact h
  · exact h

/-! ### New connections -/

theorem find?_of_connect {address : String} (h : network.connect address = .ok listener) :
    network.listeners.find? address = some listener := by
  unfold Network.connect at h
  split at h
  · split at h
    · next hfound => rw [hfound, Except.ok.inj h]
    · cases h
  · cases h

/-- Where a connection is made, nothing was heard or told before. -/
theorem Sane.meet (h : Sane network config known x)
    (hconnecting : x.client.pool.state? c = some .connecting) {made : Pool.Action}
    {notMade : TransportError → Pool.Action}
    (hreached : (x.client.step (.pool made)).pool.Reached c 1) :
    Sane network config known (x.meet c made notMade) := by
  have hmoves (action : Pool.Action) :
      Client.Moves (Answers network config.serializer x.client.letters) x.client
        (x.client.step (.pool action)) :=
    (Client.Moves.start h.ledger).step fun _ _ he => nomatch he
  unfold Exchange.meet
  dsimp only
  split
  · next listener hlistener =>
    have hnone : x.farEnd? c = none := by
      cases he : x.farEnd? c with
      | none => rfl
      | some e =>
        obtain ⟨_, hmet⟩ := h.met c e he
        exact absurd hmet.reached (Pool.not_reached_of_connecting hconnecting)
    have hleads : x.client.pool.Leads c (x.client.pool.addressOf c) := by
      obtain ⟨s, hs, _⟩ := Option.map_eq_some_iff.1 hconnecting
      exact Pool.leads_of_home h.ledger.sound (Option.map_eq_some_iff.2 ⟨s, hs, rfl⟩)
    rw [h.sameNetwork] at hlistener
    refine (h.moves (hmoves made)).setEnd listener ⟨find?_of_connect hlistener,
      (hmoves made).grows.leads hleads, hreached, Nat.zero_le _, ?_,
      Server.Connection.honest_new _, Nat.zero_le _, .inr ?_⟩
    · exact (FrameStream.after_nil _).symm
    · show ((x.client.step (.pool made)).wire c).decoder = _
      rw [(hmoves made).decoder, h.fresh c hnone]
      show _ = FrameStream.after (x.client.step (.pool made)).config.maxBody.toNat []
      rw [(hmoves made).config, h.sameConfig, FrameStream.after_nil]
  · exact h.moves (hmoves _)

theorem Sane.connect (h : Sane network config known x) (a : AttemptId) :
    Sane network config known (x.connect a) := by
  unfold Exchange.connect
  split
  · next c hphase =>
    obtain ⟨y, hy, hconnecting⟩ := Option.map_eq_some_iff.1 hphase
    exact h.meet (h.ledger.sound.state?_of_openings (Pool.openings_of_attempt hy hconnecting))
      (Pool.reached_connected h.ledger.sound hy hconnecting)
  · exact h

theorem Sane.warmConnect (h : Sane network config known x) (w : WarmUpId) :
    Sane network config known (x.warmConnect w) := by
  unfold Exchange.warmConnect
  split
  · next hw =>
    exact h.meet (h.ledger.sound.state?_of_openings (Pool.openings_of_warmUp hw rfl))
      (Pool.reached_warmConnected h.ledger.sound hw rfl)
  · exact h

/-! ### Steps and runs -/

theorem Sane.step (h : Sane network config known x) (action : Action) :
    Sane network config known (x.step action) := by
  cases action with
  | client a =>
    show Sane network config known (if isLocal a then x.clientStep a else x)
    split
    · next hlocal =>
      refine h.moves ((Client.Moves.start h.ledger).step fun c chunk he => ?_)
      rw [he] at hlocal
      cases hlocal
    · exact h
  | connect a => exact h.connect a
  | warmConnect w => exact h.warmConnect w
  | deliver c count => exact h.deliver c count
  | finish c n => exact h.finish c n
  | bring c count => exact h.bring c count

theorem sane_new (network : Network) (config : TransportConfig) :
    Sane network config [] (.new network config) where
  sameNetwork := rfl
  sameConfig := rfl
  known := List.nil_prefix
  ledger := Client.ledger_new config
  met _ _ he := by cases he
  fresh _ _ := rfl

theorem Sane.run (h : Sane network config known x) (actions : List Action) :
    Sane network config known (x.run actions) := by
  induction actions generalizing x with
  | nil => exact h
  | cons action rest ih => exact ih (h.step action)

/-- What a client tells a caller that a request was answered with is right. -/
theorem Sane.answers (h : Sane network config known x) {n : CallId} {answer : Answer}
    {r : Response} (hanswer : x.client.answer? n = some answer) (hr : answer.response = .ok r) :
    ∃ letter, x.client.letters[n]? = some letter ∧
      Answers network config.serializer x.client.letters letter.message.header.requestId r := by
  unfold Client.answer? at hanswer
  split at hanswer
  · next address message ended hn =>
    obtain rfl := Option.some.inj hanswer
    refine ⟨⟨address, message⟩, by rw [Client.letters, List.getElem?_map, hn]; rfl, ?_⟩
    have hfits := h.ledger.ended _ (List.mem_of_getElem? hn) _ rfl
    unfold Answer.response at hr
    split at hr
    · next m =>
      split at hr
      · next hbody =>
        obtain rfl := Except.ok.inj hr
        exact hfits m _ rfl hbody
      · cases hr
    · cases hr
  · cases hanswer

/-- As long as not all ids were given out, two calls have different ones. -/
theorem Sane.unique (h : Sane network config known x) (hfew : x.client.letters.length < 2 ^ 64)
    {n m : CallId} {one other : Letter} (hn : x.client.letters[n]? = some one)
    (hm : x.client.letters[m]? = some other)
    (hid : one.message.header.requestId = other.message.header.requestId) : n = m := by
  have number {k : CallId} {letter : Letter} (hk : x.client.letters[k]? = some letter) :
      letter.message.header.requestId.toNat = k + 1 := by
    obtain ⟨wish, hwish⟩ := h.ledger.numbered k letter hk
    have hlt := (List.getElem?_eq_some_iff.1 hk).1
    have hsmall : k + 1 < 2 ^ 64 := Nat.lt_of_le_of_lt hlt hfew
    rw [hwish]
    cases wish <;> exact UInt64.toNat_ofNat_of_lt' hsmall
  have := (number hn).symm.trans ((congrArg UInt64.toNat hid).trans (number hm))
  exact Nat.succ.inj this

/-- **Whatever happens on the way, a request that is answered is answered with what the
server at its address makes of this very request.** -/
theorem answer_own (network : Network) (config : TransportConfig) (before after : List Action)
    (target : String) (q : Request) :
    let x := (new network config).run before
    let y := x.run (.client (.call target (.request q)) :: after)
    ∀ answer r, y.client.calls.length < 2 ^ 64 →
      y.client.answer? x.client.calls.length = some answer → answer.response = .ok r →
      ∃ listener, network.listeners.find? target = some listener ∧
        r = (listener.endpoint.dispatch ⟨config.serializer, x.client.ids.next⟩ q).2 := by
  intro x y answer r hfew hanswer hr
  have hx := (sane_new network config).run before
  let mine : Letter := ⟨target, .request config.layout config.serializer x.client.ids.next q⟩
  have hletters : (x.step (.client (.call target (.request q)))).client.letters =
      x.client.letters ++ [mine] := by
    simp only [mine]
    rw [← hx.sameConfig]
    exact List.map_append
  have hstart : Sane network config (x.client.letters ++ [mine])
      (x.step (.client (.call target (.request q)))) :=
    { hx.step _ with known := hletters ▸ List.prefix_rfl }
  have hy : Sane network config (x.client.letters ++ [mine]) y := hstart.run after
  have hlength {z : Exchange} : z.client.letters.length = z.client.calls.length :=
    List.length_map _
  have hmine : y.client.letters[x.client.calls.length]? = some mine := by
    obtain ⟨more, hmore⟩ := hy.known
    rw [← hmore, ← hlength, List.getElem?_append_left (by simp), List.getElem?_concat_length]
  obtain ⟨own, hown, letter, hletter, q', listener, hid, hbody, hfound, rfl⟩ :=
    hy.answers hanswer hr
  obtain rfl : mine = own := Option.some.inj (hmine.symm.trans hown)
  obtain ⟨m, hm⟩ := List.getElem?_of_mem hletter
  have hsame := hy.unique (hlength ▸ hfew) hm hmine hid
  obtain rfl : letter = mine := Option.some.inj (hm.symm.trans (hsame ▸ hmine))
  obtain rfl := MessageBody.request.inj hbody
  exact ⟨listener, hfound, rfl⟩

/-! ### A case -/

/-- A network with one server, whose one method returns its first argument. -/
def returning : Network where
  listeners := [("a:1", {
    endpoint := { methods := [⟨"Sample", "return", fun _ q => .ok { data := q.args.head? }⟩] } })]

/-- A client with room for one connection to each address. -/
def narrow : TransportConfig := { serializer := .native, pool := { minSize := 0, maxSize := 1 } }

/-- The call of the one method. -/
def returns (b : UInt8) : Request :=
  { serviceName := "Sample", methodName := "return", args := [[b]] }

/-- One call goes out on a new connection. -/
def oneOut : List Action :=
  [.client (.call "a:1" (.request (returns 7))), .client (.proceed 0), .client (.pool (.listen 0)),
    .client (.pool (.noneIdle 0)), .client (.pool (.claim 0)), .connect 0] ++
  List.replicate 4 (.client (.proceed 0))

/-- A second call follows on the same connection and is finished first; only its reply comes
back. -/
def overtaken : List Action :=
  [.client (.proceed 1), .client (.pool (.listen 1)), .client (.pool (.take 1 0))] ++
  List.replicate 4 (.client (.proceed 1)) ++
  [.client (.write 0), .client (.write 0), .deliver 0 500, .finish 0 1, .finish 0 0,
    .bring 0 500, .client (.handle 0), .client (.proceed 1)]

/-- The second of two calls on one connection is answered before the first. -/
theorem answer_own_overtaking :
    let x := (new returning narrow).run oneOut
    let y := x.run (.client (.call "a:1" (.request (returns 8))) :: overtaken)
    y.client.calls.length < 2 ^ 64 ∧ y.client.answer? 0 = none ∧
      ∃ answer r listener, y.client.answer? x.client.calls.length = some answer ∧
        answer.response = .ok r ∧ r.data = some [8] ∧
        returning.listeners.find? "a:1" = some listener ∧
        r = (listener.endpoint.dispatch ⟨narrow.serializer, x.client.ids.next⟩ (returns 8)).2 := by
  intro x y
  have hfew : y.client.calls.length < 2 ^ 64 := by decide +kernel
  have hresponse : (y.client.answer? x.client.calls.length).map Answer.response =
      some (.ok { data := some [8] }) := by decide +kernel
  obtain ⟨answer, hanswer, hr⟩ := Option.map_eq_some_iff.1 hresponse
  obtain ⟨listener, hlistener, hown⟩ :=
    answer_own returning narrow oneOut overtaken "a:1" (returns 8) answer _ hfew hanswer hr
  exact ⟨hfew, by decide +kernel, answer, _, listener, hanswer, hr, rfl, hlistener, hown⟩

end Exchange
end RemoteCall.Transport
