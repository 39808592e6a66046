import SeisFeed.Proofs.Session.Hearing
/-!
# Exchanges

What a client sends does not change what it reads, unless the server was waiting for it. On a link
where nothing is held back a request is therefore only written down, and the answer to it is
whatever comes next. Subscribing is such an exchange: a greeting, the list of the channels, and the
subscription.
-/

namespace SeisFeed.Session

open Wire (Bytes)

theorem isEmpty_encode_request (r : Request) : r.encode.isEmpty = false := by
  have hlength : r.encode.length = headerLength + r.body.length := by
    rw [Request.encode, encodeMessage, List.length_append, length_encode_header]
  cases hbytes : r.encode with
  | nil =>
    rw [hbytes, List.length_nil, headerLength] at hlength
    omega
  | cons byte bytes => rfl

/-- The kind of message that bytes begin with. -/
def kindOf? (bytes : Bytes) : Option MessageKind :=
  (Header.decode bytes).toOption.bind Header.kind?

theorem kindOf?_encode (r : Request) : kindOf? r.encode = some r.kind := by
  have hdecode := decode_header_append (Header.ofBody r.kind r.body) r.body
  rw [kindOf?, Request.encode, encodeMessage, hdecode]
  exact MessageKind.ofCode?_code r.kind

namespace Link

/-- A link on which the client can send, and the server waits for nothing. -/
structure Free (link : Link) : Prop where
  writable : link.writable = true
  held : link.incoming.held = []

/-- The link after a request was sent on it. -/
def after (link : Link) (r : Request) : Link :=
  { link with sent := link.sent ++ [r.encode] }

def afterAll (link : Link) (rs : List Request) : Link :=
  rs.foldl after link

theorem sent_afterAll (link : Link) (rs : List Request) :
    (link.afterAll rs).sent = link.sent ++ rs.map Request.encode := by
  induction rs generalizing link with
  | nil => simp [afterAll]
  | cons r rs ih =>
    have hrest := ih (link.after r)
    rw [afterAll] at hrest ⊢
    rw [List.foldl_cons, hrest]
    simp [after]

variable {link rest : Link}

theorem free_opened (ready : Bytes) (closes : Bool) (readTimeout : Time.Duration) :
    (opened ⟨ready, [], closes⟩ readTimeout).Free :=
  ⟨rfl, rfl⟩

theorem Free.after (h : link.Free) (r : Request) : (link.after r).Free :=
  ⟨h.writable, h.held⟩

theorem Free.carrying (h : link.Free) (ms : List Parcel) : (link.carrying ms).Free :=
  ⟨h.writable, h.held⟩

@[simp] theorem carrying_after (rest : Link) (ms : List Parcel) (r : Request) :
    (rest.carrying ms).after r = (rest.after r).carrying ms := rfl

theorem Free.sendRequest (h : link.Free) (r : Request) :
    sendRequest r link = (.ok (), link.after r) := by
  have hrelease : link.incoming.release = link.incoming := by rw [Incoming.release, h.held]
  simp [Link.sendRequest, send, isEmpty_encode_request, h.writable, hrelease, Link.after]

/-- Only a request to keep the connection alive makes the server send what it holds back. -/
theorem sendRequest_of_kind (h : link.writable = true) {r : Request}
    (hkind : r.kind ≠ .requestPending) : sendRequest r link = (.ok (), link.after r) := by
  have hother : r.encode ≠ Request.requestPending.encode := by
    intro hsame
    have hkinds := congrArg kindOf? hsame
    rw [kindOf?_encode, kindOf?_encode] at hkinds
    exact hkind (Option.some.inj hkinds)
  simp [sendRequest, send, isEmpty_encode_request, h, hother, Link.after]

@[simp] theorem liftProtocol_ok {α : Type} (a : α) :
    liftProtocol (.ok a) link = (.ok a, link) := rfl

theorem expect_carrying {kind : MessageKind} {m : Parcel} (ms : List Parcel)
    (hkind : MessageKind.ofCode? m.code = some kind) :
    expect kind (rest.carrying (m :: ms)) = (.ok m.body, rest.carrying ms) := by
  have hmessage : m.message.header.kind? = some kind := hkind
  rw [expect, bind_apply, receiveMessage_carrying]
  simp only [hmessage, if_true]
  rfl

/-! ### Reading is blind to what was sent -/

/-- The link had the client sent something else on it. -/
def withSent (link : Link) (sent : List Bytes) : Link :=
  { link with sent := sent }

/-- A transfer that neither sends nor looks at what was sent. -/
def Blind {α : Type} (x : Transfer α) : Prop :=
  ∀ link sent, x (link.withSent sent) = ((x link).1, (x link).2.withSent sent)

theorem Blind.bind {α β : Type} {x : Transfer α} {f : α → Transfer β} (hx : Blind x)
    (hf : ∀ a, Blind (f a)) : Blind (x >>= f) := by
  intro link sent
  rw [bind_apply, bind_apply, hx link sent]
  rcases x link with ⟨fault | a, link'⟩
  · rfl
  · exact hf a link' sent

theorem blind_receive (count : Nat) : Blind (receive count) := by
  intro link sent
  have hready : (link.withSent sent).incoming.ready = link.incoming.ready := rfl
  rw [receive, receive, hready]
  by_cases hcount : count ≤ link.incoming.ready.length
  · rw [if_pos hcount, if_pos hcount]
    rfl
  · rw [if_neg hcount, if_neg hcount]
    rfl

theorem blind_liftProtocol {α : Type} (result : Except ProtocolFault α) :
    Blind (liftProtocol result) := by
  cases result with
  | error fault => exact fun _ _ => rfl
  | ok a => exact fun _ _ => rfl

theorem blind_receiveMessage : Blind receiveMessage := by
  have hheader : Blind receiveHeader := (blind_receive headerLength).bind fun _ =>
    blind_liftProtocol _
  refine hheader.bind fun header => ?_
  split
  · exact fun _ _ => rfl
  · exact (blind_receive _).bind fun _ _ _ => rfl

end Link

namespace Subscription

/-- What subscribing comes to, by what the server has answered to the greeting and the link behind
it. -/
def introduced (request : StreamRequest) (rest : Link) :
    Except SessionFault Bytes → Except SessionFault (Directory × Directory) × Link
  | .error fault => (.error fault, rest)
  | .ok body =>
    match Directory.parse body with
    | .error fault => (.error (.protocol fault), rest)
    | .ok directory =>
      match selectChannels directory request.patterns request.network with
      | .error fault => (.error fault, rest)
      | .ok subscribed => (.ok (directory, subscribed), rest.after
          (.addTimeSeriesChannels subscribed.keys request.completion.code request.outFormat
            request.buffered))

theorem handshake_eq {request : StreamRequest} {link rest : Link}
    {answer : Except SessionFault Bytes}
    (hexpect : Link.expect .channelList (link.after .connect) = (answer, rest))
    (hwritable : link.writable = true) (hrest : rest.writable = true) :
    handshake request link = introduced request rest answer := by
  rw [handshake, Link.bind_apply, Link.sendRequest_of_kind hwritable (r := .connect) nofun]
  dsimp only
  rw [Link.bind_apply, hexpect]
  cases answer with
  | error fault => rfl
  | ok body =>
    dsimp only
    rw [Link.bind_apply, introduced]
    cases Directory.parse body with
    | error fault => rfl
    | ok directory =>
      rw [Link.liftProtocol_ok]
      dsimp only
      cases selectChannels directory request.patterns request.network with
      | error fault => rfl
      | ok subscribed =>
        dsimp only
        rw [Link.bind_apply, Link.sendRequest_of_kind hrest]
        · rfl
        · exact nofun

theorem handshake_carrying {request : StreamRequest} {listing : Parcel}
    {directory subscribed : Directory} {rest : Link} (ms : List Parcel)
    (hwritable : rest.writable = true)
    (hkind : MessageKind.ofCode? listing.code = some .channelList)
    (hparse : Directory.parse listing.body = .ok directory)
    (hselect : selectChannels directory request.patterns request.network = .ok subscribed) :
    handshake request (rest.carrying (listing :: ms)) =
      (.ok (directory, subscribed),
        ((rest.after .connect).after (.addTimeSeriesChannels subscribed.keys
          request.completion.code request.outFormat request.buffered)).carrying ms) := by
  have hexpect : Link.expect .channelList ((rest.carrying (listing :: ms)).after .connect) =
      (.ok listing.body, (rest.after .connect).carrying ms) := by
    rw [Link.carrying_after]
    exact Link.expect_carrying ms hkind
  rw [handshake_eq hexpect hwritable hwritable, introduced, hparse]
  simp only [hselect]
  rfl

end Subscription

/-! ### A station with one channel -/

namespace Sample

def directory : Directory :=
  .ofList [⟨0x00030100, "PFO.HHZ", none⟩]

def channelList : Parcel :=
  ⟨MessageKind.channelList.code, directory.toBody, by decide⟩

/-- A packet of sixteen samples at a hundred a second, each one larger than the one before, of one
of the channels of the station. Packets of successive sequence numbers follow one another without a
gap in time, from a given second on. -/
def packetOf (channel : UInt8) (seconds : UInt32) (sequence : Nat) (x0 : Int32) : Parcel where
  code := MessageKind.compressed.code
  body := Waveform.encodeCompressed 0
    ⟨1, seconds, UInt16.ofNat (1600 * sequence), 3, UInt32.ofNat sequence, 0x48 + channel, x0⟩
    (0x55 :: List.replicate 16 1)
  fits := by
    simp [Waveform.encodeCompressed, Waveform.PacketHeader.fields, Wire.Field.encodeAll,
      Wire.Field.encode, Wire.word16, Wire.word32, Wire.int24, Wire.int32, maxBodyLength]

def packet (sequence : Nat) (x0 : Int32) : Parcel :=
  packetOf 0 1700000000 sequence x0

end Sample

end SeisFeed.Session
