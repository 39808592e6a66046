import SeisFeed.Request
import SeisFeed.Session.Fault
/-!
# Links

A link is a client's end of a connection: the bytes that the server sends, and what the client has
sent. All that matters of a server is which bytes it sends, which of them it holds back until the
client has asked it to keep the connection alive, and whether it closes the connection after the
last. So a connection is a stream of bytes that ends or falls silent; one that the network breaks
off with a fault of its own is not described.

A receipt of a given length takes exactly that many bytes. Where there are fewer, the bytes there
are lost, and the fault says whether the server has stopped sending and whether it did so between
two receipts.
-/

namespace SeisFeed.Session

open Time (Duration)
open Wire (Bytes)

structure Incoming where
  /-- The bytes that are there to be read. -/
  ready : Bytes
  /-- The bytes held back, each run until one more request to keep the connection alive. -/
  held : List Bytes
  /-- Whether the server closes the connection after the last byte. -/
  closes : Bool
  deriving DecidableEq, Repr

namespace Incoming

/-- What a server sends that waits at some places, the `none`s, for a request to keep the connection
alive. -/
def ofScript (closes : Bool) : List (Option Bytes) → Incoming
  | [] => ⟨[], [], closes⟩
  | none :: rest =>
    let i := ofScript closes rest
    { i with ready := [], held := i.ready :: i.held }
  | some bytes :: rest =>
    let i := ofScript closes rest
    { i with ready := bytes ++ i.ready }

def isLast (i : Incoming) : Bool :=
  i.closes && i.held.isEmpty

/-- Whether a reader need not wait: a byte is there, or none will come. -/
def readable (i : Incoming) : Bool :=
  !i.ready.isEmpty || i.isLast

/-- The server's answer to a request to keep the connection alive. -/
def release (i : Incoming) : Incoming :=
  match i.held with
  | [] => i
  | bytes :: held => { i with ready := i.ready ++ bytes, held := held }

/-- The bytes still to come, with one more for each run held back. -/
def size (i : Incoming) : Nat :=
  i.ready.length + i.held.flatten.length + i.held.length

end Incoming

/-- A client's end of a connection. -/
structure Link where
  incoming : Incoming
  /-- What the client has sent, transfer by transfer. -/
  sent : List Bytes
  readTimeout : Duration
  /-- Whether the client can still send. -/
  writable : Bool
  deriving DecidableEq, Repr

def maxBodyLength : UInt32 := 16777216

structure Message where
  header : Header
  body : Bytes
  deriving DecidableEq, Repr

abbrev Transfer (α : Type) : Type := ExceptT SessionFault (StateM Link) α

namespace Link

/-- A link to a server from which nothing has been read yet. -/
def opened (incoming : Incoming) (readTimeout : Duration) : Link where
  incoming := incoming
  sent := []
  readTimeout := readTimeout
  writable := true

/-- Transfers with each run of requests to keep the connection alive reduced to one; their number
depends on nothing but the time that passed. -/
def condense : List Bytes → List Bytes
  | a :: b :: rest =>
    if a = b ∧ a = Request.requestPending.encode then condense (b :: rest)
    else a :: condense (b :: rest)
  | transfers => transfers

def size (link : Link) : Nat :=
  link.incoming.size

def advance (link : Link) (count : Nat) : Link :=
  { link with incoming := { link.incoming with ready := link.incoming.ready.drop count } }

/-- Why a receipt of a length fails where there are too few bytes. -/
def shortage (link : Link) (count : Nat) : SessionFault :=
  if !link.incoming.isLast then .timeout link.readTimeout
  else if link.incoming.ready.isEmpty then .disconnected
  else .shortTransfer count link.incoming.ready.length

def receive (count : Nat) : Transfer Bytes := fun link =>
  if count ≤ link.incoming.ready.length then
    (.ok (link.incoming.ready.take count), link.advance count)
  else (.error (link.shortage count), link.advance link.incoming.ready.length)

def receiveInt32 : Transfer Int32 := do
  return Wire.toInt32 (← receive 4)

def liftProtocol {α : Type} (result : Except ProtocolFault α) : Transfer α :=
  match result with
  | .error fault => throw (.protocol fault)
  | .ok a => pure a

def receiveHeader : Transfer Header := do
  liftProtocol (Header.decode (← receive headerLength))

def receiveMessage : Transfer Message := do
  let header ← receiveHeader
  if maxBodyLength < header.length then
    throw (.protocol (.messageTooLarge header.length maxBodyLength))
  let body ← receive header.length.toNat
  return ⟨header, body⟩

/-- Sends bytes. The server answers a request to keep the connection alive. -/
def send (bytes : Bytes) : Transfer Unit := fun link =>
  if bytes.isEmpty then (.ok (), link)
  else if !link.writable then (.error (.io "broken pipe"), link)
  else
    let incoming :=
      if bytes = Request.requestPending.encode then link.incoming.release else link.incoming
    (.ok (), { link with incoming := incoming, sent := link.sent ++ [bytes] })

def sendRequest (request : Request) : Transfer Unit :=
  send request.encode

def shutdown : Transfer Unit := fun link =>
  (.ok (), { link with writable := false })

/-- Tells the server that the session is over, and why, and ends sending. -/
def farewell (reason : ShutdownReason) (text : String) : Transfer Unit := fun link =>
  let (result, link) := sendRequest (.terminateSubscription reason text) link
  (result, (shutdown link).2)

/-- Receives the body of a message that must be of the given kind, or an error message. -/
def expect (kind : MessageKind) : Transfer Bytes := do
  let message ← receiveMessage
  if message.header.kind? = some kind then return message.body
  else if message.header.kind? = some .error then throw (.server (messageText message.body))
  else throw (.protocol (.unexpectedMessage kind message.header.code))

end Link

end SeisFeed.Session
