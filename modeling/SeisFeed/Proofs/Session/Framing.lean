import SeisFeed.Proofs.Wire.Reading
import SeisFeed.Session.Link
/-!
# Framing

A server writes messages one behind the other, each with its header in front of its body. A client
that receives them takes from the link what each header announces and not a byte more; where the
server stops in the middle, it receives the messages that were sent as a whole, and then a fault.
`tornFault` says which, by where the server stopped.
-/

namespace SeisFeed.Session

open Wire (Bytes Read)

/-- A message as a server writes it: any type code, and any body that a client accepts. -/
structure Parcel where
  code : UInt32
  body : Bytes
  fits : body.length ≤ maxBodyLength.toNat

namespace Parcel

def header (p : Parcel) : Header :=
  ⟨p.code, UInt32.ofNat p.body.length⟩

def encode (p : Parcel) : Bytes :=
  p.header.encode ++ p.body

def message (p : Parcel) : Message :=
  ⟨p.header, p.body⟩

def stream (ps : List Parcel) : Bytes :=
  ps.flatMap encode

theorem toNat_length (p : Parcel) : p.header.length.toNat = p.body.length := by
  have hfits : p.body.length ≤ 16777216 := p.fits
  exact UInt32.toNat_ofNat_of_lt' (by show p.body.length < 4294967296; omega)

theorem length_le (p : Parcel) : ¬ maxBodyLength < p.header.length := by
  rw [UInt32.lt_iff_toNat_lt, toNat_length]
  exact Nat.not_lt.2 p.fits

end Parcel

/-! ### Headers -/

theorem length_encode_header (h : Header) : h.encode.length = headerLength := by
  simp [Header.encode, Wire.Field.encodeAll, Wire.Field.encode, headerLength]

theorem reads_header : Read.Reads Header.read headerLength fun bs =>
    (Wire.toWord32 (bs.take 4), ⟨Wire.toWord32 ((bs.drop 4).take 4),
      Wire.toWord32 ((bs.drop 4).drop 4)⟩) :=
  Read.reads_word32.bind fun _ => Read.reads_word32.bind fun _ => Read.reads_word32.map _

theorem decode_header_append (h : Header) (rest : Bytes) :
    Header.decode (h.encode ++ rest) = .ok h := by
  have hread := reads_header.append (length_encode_header h) 0 rest
  rw [Header.decode, Read.run, Wire.Cursor.start, hread]
  simp [Header.encode, Wire.Field.encodeAll, Wire.Field.encode]

theorem decode_encode_header (h : Header) : Header.decode h.encode = .ok h := by
  have hdecode := decode_header_append h []
  rwa [List.append_nil] at hdecode

theorem encode_of_decode_header {bytes : Bytes} {h : Header} (hlength : bytes.length = headerLength)
    (hdecode : Header.decode bytes = .ok h) : h.encode = bytes := by
  have hread := reads_header.append hlength 0 []
  rw [List.append_nil] at hread
  rw [Header.decode, Read.run, Wire.Cursor.start, hread] at hdecode
  dsimp only at hdecode
  split at hdecode
  · next hopening =>
    obtain rfl := Except.ok.inj hdecode
    have hlength : bytes.length = 12 := hlength
    simp only [Header.encode, Wire.Field.encodeAll, Wire.Field.encode, List.flatMap_cons,
      List.flatMap_nil, List.append_nil]
    rw [← hopening, Wire.word32_toWord32 (by simp [hlength]),
      Wire.word32_toWord32 (by simp [hlength]), Wire.word32_toWord32 (by simp [hlength]),
      List.take_append_drop, List.take_append_drop]
  · cases hdecode

namespace Link

/-! ### Receipts -/

theorem bind_apply {α β : Type} (x : Transfer α) (f : α → Transfer β) (link : Link) :
    (x >>= f) link =
      match x link with
      | (.ok a, link) => f a link
      | (.error fault, link) => (.error fault, link) := by
  simp only [bind, ExceptT.bind, ExceptT.mk, StateT.bind]
  rcases x link with ⟨_ | a, l⟩ <;> rfl

def withReady (link : Link) (ready : Bytes) : Link :=
  { link with incoming := { link.incoming with ready := ready } }

/-- The link to a server that has sent some bytes and closed the connection. -/
def closedAfter (link : Link) (ready : Bytes) : Link :=
  { link with incoming := ⟨ready, [], true⟩ }

theorem receive_append (link : Link) (front rest : Bytes) :
    receive front.length (link.withReady (front ++ rest)) = (.ok front, link.withReady rest) := by
  simp [receive, withReady, advance]

/-- The fault of a receipt of a length where the connection ends. -/
def shortFault (count : Nat) (ready : Bytes) : SessionFault :=
  if ready = [] then .disconnected else .shortTransfer count ready.length

theorem receive_short (link : Link) {count : Nat} {ready : Bytes} (h : ready.length < count) :
    receive count (link.closedAfter ready) =
      (.error (shortFault count ready), link.closedAfter []) := by
  simp [receive, closedAfter, advance, shortage, shortFault, Incoming.isLast, Nat.not_le.2 h]

theorem receiveHeader_append (link : Link) (h : Header) (rest : Bytes) :
    receiveHeader (link.withReady (h.encode ++ rest)) = (.ok h, link.withReady rest) := by
  have hreceive := receive_append link h.encode rest
  rw [length_encode_header] at hreceive
  rw [receiveHeader, bind_apply, hreceive]
  show liftProtocol (Header.decode h.encode) (link.withReady rest) = _
  rw [decode_encode_header]
  rfl

theorem receiveMessage_append (link : Link) (p : Parcel) (rest : Bytes) :
    receiveMessage (link.withReady (p.encode ++ rest)) = (.ok p.message, link.withReady rest) := by
  rw [receiveMessage, bind_apply, Parcel.encode, List.append_assoc, receiveHeader_append]
  simp only [p.length_le, if_false, bind_apply, Parcel.toNat_length, receive_append]
  rfl

/-- The fault of receiving a message of which only the first `sent` bytes were sent. -/
def tornFault (p : Parcel) (sent : Nat) : SessionFault :=
  if sent < headerLength then shortFault headerLength (p.encode.take sent)
  else shortFault p.body.length (p.body.take (sent - headerLength))

/-- A message that was sent in part is not received, and nothing is left of it. -/
theorem receiveMessage_torn (link : Link) {p : Parcel} {sent : Nat}
    (h : sent < p.encode.length) :
    receiveMessage (link.closedAfter (p.encode.take sent)) =
      (.error (tornFault p sent), link.closedAfter []) := by
  have hlength : p.encode.length = headerLength + p.body.length := by
    rw [Parcel.encode, List.length_append, length_encode_header]
  by_cases hheader : sent < headerLength
  · have hfew : (p.encode.take sent).length < headerLength := by
      rw [List.length_take]
      omega
    rw [receiveMessage, bind_apply, receiveHeader, bind_apply, receive_short link hfew, tornFault,
      if_pos hheader]
  · have hsplit : p.encode.take sent = p.header.encode ++ p.body.take (sent - headerLength) := by
      rw [Parcel.encode, List.take_append, length_encode_header,
        List.take_of_length_le (by rw [length_encode_header]; omega)]
    have hfew : (p.body.take (sent - headerLength)).length < p.body.length := by
      rw [List.length_take]
      omega
    have hreceived : receiveHeader (link.closedAfter (p.encode.take sent)) =
        (.ok p.header, link.closedAfter (p.body.take (sent - headerLength))) := by
      rw [hsplit]
      exact receiveHeader_append (link.closedAfter []) p.header _
    rw [receiveMessage, bind_apply, hreceived]
    simp only [p.length_le, if_false, bind_apply, Parcel.toNat_length]
    rw [receive_short link hfew, tornFault, if_neg hheader]

theorem receiveMessage_closed (link : Link) :
    receiveMessage (link.closedAfter []) = (.error .disconnected, link.closedAfter []) := by
  rw [receiveMessage, bind_apply, receiveHeader, bind_apply,
    receive_short link (show ([] : Bytes).length < headerLength by decide)]
  rfl

/-! ### Streams cut off -/

def receipts : Nat → Link → List (Except SessionFault Message) × Link
  | 0, link => ([], link)
  | count + 1, link =>
    let (result, link) := receiveMessage link
    let (results, link) := receipts count link
    (result :: results, link)

end Link

namespace Parcel

/-- The messages of which all bytes are among the first `cut` of a stream. -/
def wholeWithin : Nat → List Parcel → List Parcel
  | _, [] => []
  | cut, p :: ps =>
    if p.encode.length ≤ cut then p :: wholeWithin (cut - p.encode.length) ps else []

/-- The fault that follows the messages received from the first `cut` bytes of a stream. -/
def cutFault : Nat → List Parcel → SessionFault
  | _, [] => .disconnected
  | cut, p :: ps =>
    if p.encode.length ≤ cut then cutFault (cut - p.encode.length) ps else Link.tornFault p cut

@[simp] theorem stream_nil : stream [] = [] := rfl

@[simp] theorem stream_cons (p : Parcel) (ps : List Parcel) :
    stream (p :: ps) = p.encode ++ stream ps := rfl

@[simp] theorem stream_append (ps ps' : List Parcel) :
    stream (ps ++ ps') = stream ps ++ stream ps' :=
  List.flatMap_append

theorem wholeWithin_prefix (cut : Nat) (ps : List Parcel) : wholeWithin cut ps <+: ps := by
  induction ps generalizing cut with
  | nil => exact List.prefix_refl []
  | cons p ps ih =>
    rw [wholeWithin]
    split
    · exact List.cons_prefix_cons.2 ⟨rfl, ih _⟩
    · exact List.nil_prefix

theorem length_stream_wholeWithin (cut : Nat) (ps : List Parcel) :
    (stream (wholeWithin cut ps)).length ≤ cut := by
  induction ps generalizing cut with
  | nil => exact Nat.zero_le cut
  | cons p ps ih =>
    rw [wholeWithin]
    split
    · have := ih (cut - p.encode.length)
      rw [stream_cons, List.length_append]
      omega
    · exact Nat.zero_le cut

theorem lt_length_stream_wholeWithin {cut : Nat} {ps : List Parcel} {p : Parcel}
    (h : wholeWithin cut ps ++ [p] <+: ps) :
    cut < (stream (wholeWithin cut ps ++ [p])).length := by
  induction ps generalizing cut with
  | nil => exact absurd h.length_le (by simp)
  | cons q ps ih =>
    rw [wholeWithin] at h ⊢
    split at h
    · next hfits =>
      rw [if_pos hfits]
      have := ih (List.cons_prefix_cons.1 h).2
      rw [List.cons_append, stream_cons, List.length_append]
      omega
    · next hfits =>
      rw [if_neg hfits]
      obtain ⟨rfl, -⟩ := List.cons_prefix_cons.1 h
      simpa using hfits

theorem cutFault_fatal (cut : Nat) (ps : List Parcel) :
    (cutFault cut ps).isConnectionFatal = true := by
  have hshort : ∀ count ready, (Link.shortFault count ready).isConnectionFatal = true := by
    intro count ready
    rw [Link.shortFault]
    split <;> rfl
  induction ps generalizing cut with
  | nil => rfl
  | cons p ps ih =>
    rw [cutFault]
    split
    · exact ih _
    · rw [Link.tornFault]
      split <;> exact hshort _ _

end Parcel

namespace Link

open Parcel (stream wholeWithin cutFault)

theorem receipts_take (link : Link) (ps : List Parcel) (cut : Nat) :
    (receipts ((wholeWithin cut ps).length + 1) (link.closedAfter ((stream ps).take cut))).1 =
      (wholeWithin cut ps).map (fun p => .ok p.message) ++ [.error (cutFault cut ps)] := by
  induction ps generalizing cut with
  | nil => simp [wholeWithin, cutFault, receipts, receiveMessage_closed]
  | cons p ps ih =>
    by_cases hfits : p.encode.length ≤ cut
    · have htake : (stream (p :: ps)).take cut =
          p.encode ++ (stream ps).take (cut - p.encode.length) := by
        rw [Parcel.stream_cons, List.take_append, List.take_of_length_le hfits]
      have hreceived : receiveMessage (link.closedAfter ((stream (p :: ps)).take cut)) =
          (.ok p.message, link.closedAfter ((stream ps).take (cut - p.encode.length))) := by
        rw [htake]
        exact receiveMessage_append (link.closedAfter []) p _
      rw [wholeWithin, cutFault, if_pos hfits, if_pos hfits, List.length_cons, receipts, hreceived]
      exact congrArg (_ :: ·) (ih (cut - p.encode.length))
    · have htake : (stream (p :: ps)).take cut = p.encode.take cut := by
        rw [Parcel.stream_cons, List.take_append_of_le_length (by omega)]
      rw [htake, wholeWithin, cutFault, if_neg hfits, if_neg hfits, List.length_nil, receipts,
        receiveMessage_torn link (Nat.not_le.1 hfits)]
      rfl

/-- **Messages are never torn.** Of messages sent one behind the other and cut off after any number
of bytes, those are received, in order and with their bodies, whose bytes were all sent, and then
there is a fault that makes the connection unusable. -/
theorem receive_cut_stream (link : Link) (ps : List Parcel) (cut : Nat) :
    ∃ whole fault, whole <+: ps ∧ (stream whole).length ≤ cut ∧
      (∀ p, whole ++ [p] <+: ps → cut < (stream (whole ++ [p])).length) ∧
      (receipts (whole.length + 1) (link.closedAfter ((stream ps).take cut))).1 =
        whole.map (fun p => .ok p.message) ++ [.error fault] ∧
      fault.isConnectionFatal = true :=
  ⟨wholeWithin cut ps, cutFault cut ps, Parcel.wholeWithin_prefix cut ps,
    Parcel.length_stream_wholeWithin cut ps, fun _ => Parcel.lt_length_stream_wholeWithin,
    receipts_take link ps cut, Parcel.cutFault_fatal cut ps⟩

end Link

end SeisFeed.Session
