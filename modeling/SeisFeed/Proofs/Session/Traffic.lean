import SeisFeed.Proofs.Session.Exchange
/-!
# What passes over a link

Of a server nothing is known but the bytes it sends. A message that a client receives from it is one
whose bytes came first, header and body; and where a client fails to receive one, the connection is
unusable. So from one state of a link to a later one the client has heard some messages, `heard`,
and a session is told by these and by the requests that it has sent, of which `sentOf` lists those
of a kind.
-/

namespace SeisFeed.Session

open Wire (Bytes)

theorem fatal_of_decode_header {bytes : Bytes} {fault : ProtocolFault}
    (h : Header.decode bytes = .error fault) :
    (SessionFault.protocol fault).isConnectionFatal = true := by
  rw [Header.decode] at h
  split at h
  · obtain rfl := Except.error.inj h
    rfl
  · split at h
    · cases h
    · obtain rfl := Except.error.inj h
      rfl

namespace Link

variable {link link' rest stop : Link} {m : Message}

/-! ### Receiving draws on what is to come -/

/-- A transfer that does nothing to a link but take bytes from what is to come. -/
def Draws {α : Type} (x : Transfer α) : Prop :=
  ∀ link, ∃ ready, ready.length ≤ link.incoming.ready.length ∧ (x link).2 = link.withReady ready

theorem Draws.bind {α β : Type} {x : Transfer α} {f : α → Transfer β} (hx : Draws x)
    (hf : ∀ a, Draws (f a)) : Draws (x >>= f) := by
  intro link
  obtain ⟨ready, hready, hlink⟩ := hx link
  rw [bind_apply]
  rcases hresult : x link with ⟨fault | a, mid⟩
  · rw [hresult] at hlink
    exact ⟨ready, hready, hlink⟩
  · rw [hresult] at hlink
    obtain rfl : mid = link.withReady ready := hlink
    obtain ⟨ready', hready', hlink'⟩ := hf a (link.withReady ready)
    exact ⟨ready', Nat.le_trans hready' hready, hlink'⟩

theorem draws_pure {α : Type} (a : α) : Draws (pure a) :=
  fun link => ⟨link.incoming.ready, Nat.le_refl _, rfl⟩

theorem draws_throw {α : Type} (fault : SessionFault) : Draws (throw fault : Transfer α) :=
  fun link => ⟨link.incoming.ready, Nat.le_refl _, rfl⟩

theorem draws_receive (count : Nat) : Draws (receive count) := by
  intro link
  rw [receive]
  split
  · exact ⟨_, (List.drop_sublist count _).length_le, rfl⟩
  · exact ⟨_, (List.drop_sublist _ _).length_le, rfl⟩

theorem draws_liftProtocol {α : Type} (result : Except ProtocolFault α) :
    Draws (liftProtocol result) := by
  cases result with
  | error fault => exact draws_throw (.protocol fault)
  | ok a => exact draws_pure a

theorem draws_receiveInt32 : Draws receiveInt32 :=
  (draws_receive 4).bind fun _ => draws_pure _

theorem draws_receiveMessage : Draws receiveMessage := by
  have hheader : Draws receiveHeader := (draws_receive headerLength).bind fun _ =>
    draws_liftProtocol _
  refine hheader.bind fun header => ?_
  split
  · exact draws_throw _
  · exact (draws_receive _).bind fun _ => draws_pure _

theorem draws_expect (kind : MessageKind) : Draws (expect kind) := by
  refine draws_receiveMessage.bind fun m => ?_
  split
  · exact draws_pure _
  split
  · exact draws_throw _
  · exact draws_throw _

/-! ### Receiving fails for good -/

/-- A transfer that fails only in ways that leave the connection unusable. -/
def FailsForGood {α : Type} (x : Transfer α) : Prop :=
  ∀ link fault, (x link).1 = .error fault → fault.isConnectionFatal = true

theorem FailsForGood.bind {α β : Type} {x : Transfer α} {f : α → Transfer β} (hx : FailsForGood x)
    (hf : ∀ a, FailsForGood (f a)) : FailsForGood (x >>= f) := by
  intro link fault h
  rw [bind_apply] at h
  rcases hresult : x link with ⟨fault' | a, mid⟩
  · rw [hresult] at h
    refine hx link fault ?_
    rw [hresult, ← Except.error.inj h]
  · rw [hresult] at h
    exact hf a mid fault h

theorem failsForGood_receive (count : Nat) : FailsForGood (receive count) := by
  intro link fault h
  rw [receive] at h
  split at h
  · cases h
  · obtain rfl := Except.error.inj h
    rw [shortage]
    split
    · rfl
    · split <;> rfl

theorem failsForGood_receiveMessage : FailsForGood receiveMessage := by
  have hheader : FailsForGood receiveHeader := by
    refine (failsForGood_receive headerLength).bind fun bytes link fault h => ?_
    cases hdecode : Header.decode bytes with
    | error fault' =>
      rw [hdecode] at h
      obtain rfl := Except.error.inj h
      exact fatal_of_decode_header hdecode
    | ok header =>
      rw [hdecode] at h
      cases h
  refine hheader.bind fun header => ?_
  split
  · intro link fault h
    obtain rfl := Except.error.inj h
    rfl
  · exact (failsForGood_receive _).bind fun _ _ _ h => by cases h

/-! ### Messages received -/

theorem eq_of_receive {count : Nat} {bytes : Bytes} (h : receive count link = (.ok bytes, link')) :
    bytes.length = count ∧ link = link'.withReady (bytes ++ link'.incoming.ready) := by
  rw [receive] at h
  split at h
  · next hcount =>
    obtain ⟨hbytes, rfl⟩ := Prod.mk.inj h
    obtain rfl := Except.ok.inj hbytes
    refine ⟨List.length_take_of_le hcount, ?_⟩
    simp [advance, withReady]
  · cases (Prod.mk.inj h).1

theorem eq_of_receiveHeader {header : Header} (h : receiveHeader link = (.ok header, link')) :
    link = link'.withReady (header.encode ++ link'.incoming.ready) := by
  rw [receiveHeader, bind_apply] at h
  rcases hreceive : receive headerLength link with ⟨fault | bytes, mid⟩
  · rw [hreceive] at h
    cases (Prod.mk.inj h).1
  · rw [hreceive] at h
    obtain ⟨hlength, hlink⟩ := eq_of_receive hreceive
    cases hdecode : Header.decode bytes with
    | error fault =>
      simp only [hdecode] at h
      cases (Prod.mk.inj h).1
    | ok decoded =>
      simp only [hdecode] at h
      obtain ⟨hheader, rfl⟩ := Prod.mk.inj h
      obtain rfl : decoded = header := Except.ok.inj hheader
      rw [encode_of_decode_header hlength hdecode]
      exact hlink

theorem eq_of_receiveMessage (h : receiveMessage link = (.ok m, link')) :
    ∃ p : Parcel, p.message = m ∧ link = link'.carrying [p] := by
  rw [receiveMessage, bind_apply] at h
  rcases hheader : receiveHeader link with ⟨fault | header, mid⟩
  · rw [hheader] at h
    cases (Prod.mk.inj h).1
  rw [hheader] at h
  dsimp only at h
  split at h
  · cases (Prod.mk.inj h).1
  next hlength =>
  rw [bind_apply] at h
  rcases hbody : receive header.length.toNat mid with ⟨fault | body, mid'⟩
  · rw [hbody] at h
    cases (Prod.mk.inj h).1
  rw [hbody] at h
  obtain ⟨hmessage, rfl⟩ := Prod.mk.inj h
  obtain rfl := Except.ok.inj hmessage
  obtain ⟨hcount, hmid⟩ := eq_of_receive hbody
  have hfits : body.length ≤ maxBodyLength.toNat := by
    rw [hcount]
    exact Nat.not_lt.1 (mt UInt32.lt_iff_toNat_lt.2 hlength)
  let p : Parcel := ⟨header.code, body, hfits⟩
  have hsame : p.header = header := by
    show Header.mk header.code (UInt32.ofNat body.length) = header
    rw [hcount, UInt32.ofNat_toNat]
  refine ⟨p, ?_, ?_⟩
  · rw [Parcel.message, hsame]
  · rw [eq_of_receiveHeader hheader, hmid, ← hsame]
    simp [carrying, withReady, Parcel.encode, p]

theorem size_lt_of_receiveMessage (h : receiveMessage link = (.ok m, rest)) :
    rest.size < link.size := by
  obtain ⟨p, -, rfl⟩ := eq_of_receiveMessage h
  exact size_carrying_lt rest p []

/-- The messages received on a link until it is as `stop`. -/
def heard (stop link : Link) : List Message :=
  if link = stop then []
  else
    match _h : receiveMessage link with
    | (.ok m, rest) => m :: heard stop rest
    | (.error _, _) => []
termination_by link.size
decreasing_by exact size_lt_of_receiveMessage _h

@[simp] theorem heard_self (link : Link) : heard link link = [] := by
  rw [heard, if_pos rfl]

/-- Where no more is to come than from a link, what is heard begins with the messages in front of
it. -/
theorem heard_carrying (ps : List Parcel) (hstop : stop.size ≤ rest.size) :
    heard stop (rest.carrying ps) = ps.map Parcel.message ++ heard stop rest := by
  induction ps with
  | nil => rfl
  | cons p ps ih =>
    have hreceive := receiveMessage_carrying rest p ps
    -- with a message still to come there is more to come than from `stop`
    have hmore : rest.carrying (p :: ps) ≠ stop := by
      rintro rfl
      rw [size_carrying, length_stream_cons, headerLength] at hstop
      omega
    rw [heard, if_neg hmore]
    split
    · next m rest' hsame =>
      obtain ⟨hm, rfl⟩ := Prod.mk.inj (hsame.symm.trans hreceive)
      obtain rfl := Except.ok.inj hm
      rw [ih]
      rfl
    · next hsame => cases (Prod.mk.inj (hsame.symm.trans hreceive)).1

theorem receiveMessage_frame {result : Except SessionFault Message}
    (h : receiveMessage link = (result, rest)) :
    rest.sent = link.sent ∧ rest.writable = link.writable ∧ rest.size ≤ link.size := by
  obtain ⟨ready, hready, hlink⟩ := draws_receiveMessage link
  rw [h] at hlink
  obtain rfl : rest = link.withReady ready := hlink
  refine ⟨rfl, rfl, ?_⟩
  simp only [size, Incoming.size, withReady]
  omega

/-- How many of the messages heard say that the archive is ready. -/
def readiesHeard (stop link : Link) : Nat :=
  (heard stop link).countP fun m => m.header.kind? = some .ready

@[simp] theorem readiesHeard_self (link : Link) : readiesHeard link link = 0 := by
  rw [readiesHeard, heard_self, List.countP_nil]

theorem readiesHeard_of_ready {p : Parcel} (h : MessageKind.ofCode? p.code = some .ready) :
    readiesHeard rest (rest.carrying [p]) = 1 := by
  have hkind : p.message.header.kind? = some .ready := h
  rw [readiesHeard, heard_carrying [p] (Nat.le_refl _), heard_self]
  simp [hkind]

/-! ### Requests sent -/

def sentOf (kind : MessageKind) (link : Link) : List Bytes :=
  link.sent.filter fun bytes => kindOf? bytes = some kind

theorem sentOf_of_sent (h : link'.sent = link.sent) (kind : MessageKind) :
    link'.sentOf kind = link.sentOf kind := by
  rw [sentOf, sentOf, h]

theorem sentOf_concat {r : Request} (h : link'.sent = link.sent ++ [r.encode])
    (kind : MessageKind) :
    link'.sentOf kind = link.sentOf kind ++ if r.kind = kind then [r.encode] else [] := by
  rw [sentOf, sentOf, h, List.filter_append, List.filter_singleton, kindOf?_encode]
  by_cases hkind : r.kind = kind <;> simp [hkind]

theorem sendRequest_of_writable (h : link.writable = true) (r : Request) :
    ∃ link', sendRequest r link = (.ok (), link') ∧ link'.sent = link.sent ++ [r.encode] ∧
      link'.writable = true := by
  rw [sendRequest, send, isEmpty_encode_request, h]
  exact ⟨_, rfl, rfl, rfl⟩

end Link

end SeisFeed.Session
