import SeisFeed.Session.Feed
import SeisFeed.Session.Network
import SeisFeed.Session.Selection
import SeisFeed.Delivery.Continuity
/-!
# Subscriptions

A client of a data stream connects, is told the server's channels, subscribes to those it wants, and
then reads their packets until the server ends the stream. Packets that cannot be decoded are
counted and passed over. Records leave in the order in which their reorder buffer releases them; at
the end of the stream everything that still waits is handed out.
-/

namespace SeisFeed.Session

open Delivery (Pipeline Tracker)
open Waveform (PacketFault Record)

inductive SubscriptionPhase where
  | disconnected
  | connected
  | directoryReceived
  | subscribed
  | streaming
  | terminating
  | closed
  deriving DecidableEq, Repr

namespace SubscriptionPhase

def name : SubscriptionPhase → String
  | disconnected => "Disconnected"
  | connected => "Connected"
  | directoryReceived => "DirectoryReceived"
  | subscribed => "Subscribed"
  | streaming => "Streaming"
  | terminating => "Terminating"
  | closed => "Closed"

/-- The phases in the order in which they are passed through. -/
def all : List SubscriptionPhase :=
  [disconnected, connected, directoryReceived, subscribed, streaming, terminating, closed]

end SubscriptionPhase

structure Subscription where
  link : Link
  phase : SubscriptionPhase
  /-- All channels of the server. -/
  directory : Directory
  /-- The channels subscribed to. -/
  subscribed : Directory
  request : StreamRequest
  tracker : Tracker
  /-- The records to be handed out next. -/
  ready : List Record
  /-- How many packets could not be decoded. -/
  dropped : Nat

namespace Subscription

/-- Subscribes on a new link. Answers with the server's channels and those subscribed to. -/
def handshake (request : StreamRequest) : Transfer (Directory × Directory) := do
  Link.sendRequest .connect
  let directory ← Link.liftProtocol (Directory.parse (← Link.expect .channelList))
  match selectChannels directory request.patterns request.network with
  | .error fault => throw fault
  | .ok subscribed =>
    Link.sendRequest (.addTimeSeriesChannels subscribed.keys request.completion.code
      request.outFormat request.buffered)
    return (directory, subscribed)

def newTracker (request : StreamRequest) : Tracker :=
  Tracker.new .empty request.effectiveCapacity

/-- A client that has just subscribed to some of a server's channels, and goes on with a tracker. -/
def opened (request : StreamRequest) (tracker : Tracker) (directory subscribed : Directory)
    (link : Link) : Subscription where
  link := link
  phase := .subscribed
  directory := directory
  subscribed := subscribed
  request := request
  tracker := tracker.rebuild subscribed
  ready := []
  dropped := 0

/-- Subscribes on a new link, going on with a tracker. Where that fails, what remains is the
link. -/
def openOn (request : StreamRequest) (tracker : Tracker) (link : Link) :
    Except (SessionFault × Link) Subscription :=
  match handshake request link with
  | (.error fault, link) => .error (fault, link)
  | (.ok (directory, subscribed), link) => .ok (opened request tracker directory subscribed link)

def connect (request : StreamRequest) (settings : ClientSettings) (stopped : Bool) (n : Network) :
    Except Halt (Except SessionFault Subscription × Network) :=
  match request.validate with
  | .error fault => .ok (.error fault, n)
  | .ok () =>
    (n.connectWithRetry settings stopped).map fun (result, n) =>
      match result with
      | .error fault => (.error fault, n)
      | .ok link =>
        match openOn request (newTracker request) link with
        | .error (fault, link) => (.error fault, n.drop link)
        | .ok s => (.ok s, n)

/-! ### Reading -/

/-- What bounds the reading from a subscription: bytes to come and records to be handed out. -/
def size (s : Subscription) : Nat :=
  s.link.size + s.ready.length + s.tracker.waitingCount

def deliver (s : Subscription) (rs : List Record) : Subscription :=
  { s with tracker := s.tracker.observeAll rs, ready := s.ready ++ rs }

def accept (s : Subscription) : Except PacketFault Record → Subscription
  | .ok r =>
    let (released, tracker) := s.tracker.reorder r
    { s with tracker := tracker }.deliver released
  | .error .fillerPacket => s
  | .error _ => { s with dropped := s.dropped + 1 }

/-- Ends the stream: what still waits is laid out to be handed out. -/
def finish (s : Subscription) : Subscription :=
  let (released, tracker) := s.tracker.flush
  { s with phase := .closed, tracker := tracker }.deliver released

def pop (s : Subscription) : Option Record × Subscription :=
  match s.ready with
  | [] => (none, s)
  | r :: rest => (some r, { s with ready := rest })

/-- Ends the stream and hands out a record, if one still waits. -/
def close (s : Subscription) : Turn Next Subscription :=
  let (r, s) := s.finish.pop
  .answer (.ok r) s

def handle (s : Subscription) (m : Message) : Turn Next Subscription :=
  match m.header.kind? with
  | some .compressed => .again (s.accept (Waveform.decodeCompressed s.subscribed m.body))
  | some .decompressed => .again (s.accept (Waveform.decodeDecompressed s.subscribed m.body))
  | some .error => .answer (.error (.server (messageText m.body))) s
  | some .terminateSubscription => s.close
  | _ => .again s

/-- Takes the failure to receive a message. A server that leaves between two receipts has ended the
stream. -/
def fail (s : Subscription) : SessionFault → Turn Next Subscription
  | .disconnected => s.close
  | fault =>
    .answer (.error fault) { s with phase := if fault.isConnectionFatal then .closed else s.phase }

/-- Whether a request to keep the connection alive is due before anything can be read. -/
def mustWait (s : Subscription) : Bool :=
  s.request.pendingInterval.isSome && !s.link.incoming.readable

/-- One turn of reading: hands out a record, or asks the server to keep the connection alive, or
receives a message. -/
def turn (s : Subscription) : Turn Next Subscription :=
  match s.ready with
  | r :: rest => .answer (.ok (some r)) { s with ready := rest }
  | [] =>
    if s.mustWait then
      match Link.sendRequest .requestPending s.link with
      | (.error fault, link) => .answer (.error fault) { s with link := link }
      | (.ok (), link) => .again { s with link := link }
    else
      match Link.receiveMessage s.link with
      | (.error fault, link) => { s with link := link }.fail fault
      | (.ok message, link) => { s with link := link }.handle message

/-- Reads the next record; there is none once the stream has ended. -/
def next (s : Subscription) : Except Halt (Next × Subscription) :=
  match s.ready, s.phase with
  | r :: rest, _ => .ok (.ok (some r), { s with ready := rest })
  | [], .closed => .ok (.ok none, s)
  | [], .subscribed | [], .streaming =>
    untilAnswer size (fun s => .ok s.turn) { s with phase := .streaming }
  | [], phase => .ok (.error (.invalidState "Subscribed|Streaming" phase.name), s)

def drain (s : Subscription) : Except Halt (Remainder × Subscription) :=
  collect size next s

/-! ### Ending -/

/-- Tells the server that the subscription is over, and why, and stops sending. Records that still
wait are lost. -/
def terminate (reason : ShutdownReason) (text : String) (s : Subscription) :
    Except SessionFault Unit × Subscription :=
  if s.phase = .closed then (.ok (), s)
  else
    let (result, link) := Link.farewell reason text s.link
    (result, { s with link := link, phase := .closed, tracker := s.tracker.flush.2 })

/-! ### Feeding a pipeline -/

variable {σ : Type}

/-- One turn of feeding a pipeline: the next record is fed, unless the world wants it stopped. -/
def feedTurn (pipeline : Pipeline σ) (isStopped : σ → Bool) (f : Feed Subscription σ) :
    Except Halt (Turn (Except SessionFault Unit) (Feed Subscription σ)) :=
  if isStopped f.world then
    let (result, source) := f.source.terminate .normal "stopped"
    .ok (.answer result { f with source := source })
  else f.turn pipeline next

/-- Feeds records to a pipeline until the stream ends or the world wants it stopped. Answers how
many were fed. -/
def run (pipeline : Pipeline σ) (isStopped : σ → Bool) (s : Subscription) (world : σ) :
    Except Halt (Except SessionFault Nat × Feed Subscription σ) :=
  (untilAnswer (fun f => f.source.size) (feedTurn pipeline isStopped) (.start s world)).map
    fun (result, f) => (f.total result, f)

end Subscription

end SeisFeed.Session
