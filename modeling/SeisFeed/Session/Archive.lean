import SeisFeed.Channel.Precis
import SeisFeed.Session.Feed
import SeisFeed.Session.Network
import SeisFeed.Session.Selection
import SeisFeed.Delivery.Continuity
/-!
# Archives

A client of an archive logs in, asks which channels the archive has and which times it holds, and
requests the data of one channel in one window of time after another. A request is answered by
packets, until the archive is ready for the next one. Records are cut to the window requested.
-/

namespace SeisFeed.Session

open Delivery (Pipeline Tracker)
open Time (Duration Window)
open Waveform (PacketFault Record)
open Wire (Bytes)

/-- Where a session with an archive stands. -/
inductive ArchivePhase where
  | disconnected
  | connected
  | ready
  | requesting
  | receiving
  | terminating
  | closed
  deriving DecidableEq, Repr

namespace ArchivePhase

def name : ArchivePhase → String
  | disconnected => "Disconnected"
  | connected => "Connected"
  | ready => "Ready"
  | requesting => "Requesting"
  | receiving => "Receiving"
  | terminating => "Terminating"
  | closed => "Closed"

/-- The phases in the order in which they are passed through. -/
def all : List ArchivePhase :=
  [disconnected, connected, ready, requesting, receiving, terminating, closed]

end ArchivePhase

structure Archive where
  link : Link
  phase : ArchivePhase
  /-- What the archive sent first; the login is bound to it. -/
  connectionTime : Int32
  directory : Directory
  /-- The channels whose packets are decoded. -/
  selected : Directory
  window : Option Window
  tracker : Tracker
  dropped : Nat

namespace Archive

def size (a : Archive) : Nat :=
  a.link.size

/-! ### Logging in -/

/-- One turn of waiting until the archive is ready; other messages than an error are passed over. -/
def loginTurn (link : Link) : Turn (Except SessionFault Unit) Link :=
  match Link.receiveMessage link with
  | (.error fault, link) => .answer (.error fault) link
  | (.ok message, link) =>
    match message.header.kind? with
    | some .ready => .answer (.ok ()) link
    | some .error => .answer (.error (.server (messageText message.body))) link
    | _ => .again link

def sendLogin (credentials : Credentials) (connectionTime : Int32) : Transfer Unit := do
  Link.sendRequest
    (← Link.liftProtocol (Request.login credentials.username credentials.password connectionTime))

def loggedIn (connectionTime : Int32) (link : Link) : Archive where
  link := link
  phase := .ready
  connectionTime := connectionTime
  directory := .empty
  selected := .empty
  window := none
  tracker := Tracker.new .empty none
  dropped := 0

def greet (credentials : Credentials) : Transfer Int32 := do
  let connectionTime ← Link.receiveInt32
  sendLogin credentials connectionTime
  return connectionTime

/-- Logs in on a new link. Where that fails, what remains is the link. -/
def openOn (credentials : Credentials) (link : Link) :
    Except Halt (Except (SessionFault × Link) Archive) :=
  match greet credentials link with
  | (.error fault, link) => .ok (.error (fault, link))
  | (.ok connectionTime, link) =>
    (untilAnswer Link.size (fun link => .ok (loginTurn link)) link).map fun (result, link) =>
      match result with
      | .error fault => .error (fault, link)
      | .ok () => .ok (loggedIn connectionTime link)

def connect (credentials : Credentials) (settings : ClientSettings) (stopped : Bool) (n : Network) :
    Except Halt (Except SessionFault Archive × Network) := do
  match credentials.validate with
  | .error fault => return (.error fault, n)
  | .ok () =>
    match ← n.connectWithRetry settings stopped with
    | (.error fault, n) => return (.error fault, n)
    | (.ok link, n) =>
      match ← openOn credentials link with
      | .error (fault, link) => return (.error fault, n.drop link)
      | .ok a => return (.ok a, n)

/-! ### Asking what there is -/

def wrongPhase (a : Archive) (expected : String) : SessionFault :=
  .invalidState expected a.phase.name

/-- Sends a request and receives the body of the message that answers it. -/
def ask (a : Archive) (request : Request) (kind : MessageKind) :
    Except SessionFault Bytes × Archive :=
  let exchange : Transfer Bytes := do
    Link.sendRequest request
    Link.expect kind
  let (result, link) := exchange a.link
  (result, { a with link := link })

def setSelected (a : Archive) (selected : Directory) : Archive :=
  { a with tracker := a.tracker.rebuild selected, selected := selected }

/-- Asks for the channels of the archive, and selects all that carry time series. -/
def channelList (a : Archive) : Except SessionFault Directory × Archive :=
  if a.phase = .ready then
    match a.ask .channelListRequest .channelList with
    | (.error fault, a) => (.error fault, a)
    | (.ok body, a) =>
      match Directory.parse body with
      | .error fault => (.error (.protocol fault), a)
      | .ok directory =>
        (.ok directory, { a with directory := directory }.setSelected (timeSeries directory))
  else (.error (a.wrongPhase "Ready"), a)

/-- Selects the channels that patterns match among those listed last. -/
def narrow (a : Archive) (patterns network : String) : Except SessionFault Directory × Archive :=
  match selectChannels a.directory patterns network with
  | .error fault => (.error fault, a)
  | .ok selected => (.ok selected, a.setSelected selected)

/-- Selects the channels that patterns match. The archive is asked for its channels if it has listed
none. -/
def select (a : Archive) (patterns network : String) : Except SessionFault Directory × Archive :=
  if a.directory.channels = [] then
    match a.channelList with
    | (.error fault, a) => (.error fault, a)
    | (.ok _, a) => a.narrow patterns network
  else a.narrow patterns network

/-- Asks for the times that the archive holds of every channel of a type. -/
def precisList (a : Archive) (type : DataType) : Except SessionFault (List Precis) × Archive :=
  if a.phase = .ready then
    match a.ask (.precisListRequest (-1) (Int32.ofNat type.code.toNat) (-1)) .precisList with
    | (.error fault, a) => (.error fault, a)
    | (.ok body, a) =>
      match Precis.parseList body with
      | .error fault => (.error (.protocol fault), a)
      | .ok entries => (.ok entries, a)
  else (.error (a.wrongPhase "Ready"), a)

/-! ### Requesting data -/

def requestData (a : Archive) (key : UInt32) (window : Window) :
    Except SessionFault Unit × Archive :=
  if a.phase = .ready then
    match Link.sendRequest (.dataRequest key window.start window.stop) a.link with
    | (.error fault, link) => (.error fault, { a with link := link })
    | (.ok (), link) =>
      (.ok (), { a with link := link, window := some window, phase := .requesting })
  else (.error (a.wrongPhase "Ready"), a)

def startTime (w : Window) : Float :=
  Float.ofInt w.start.toInt

def stopTime (w : Window) : Float :=
  Float.ofInt w.stop.toInt

/-- A record cut to the window of the request under way, if any of it lies there. -/
def cut? (a : Archive) (r : Record) : Option Record :=
  match a.window with
  | none => some r
  | some w =>
    let r := r.trim (startTime w) (stopTime w)
    if r.hasSamples then some r else none

def accept (a : Archive) : Except PacketFault Record → Option Record × Archive
  | .error .fillerPacket => (none, a)
  | .error _ => (none, { a with dropped := a.dropped + 1 })
  | .ok r =>
    match a.cut? r with
    | none => (none, a)
    | some r => (some r, { a with tracker := (a.tracker.observe r).2 })

def receivePacket (a : Archive) (decoded : Except PacketFault Record) : Turn Next Archive :=
  match { a with phase := .receiving }.accept decoded with
  | (some r, a) => .answer (.ok (some r)) a
  | (none, a) => .again a

def handle (a : Archive) (m : Message) : Turn Next Archive :=
  match m.header.kind? with
  | some .compressed => a.receivePacket (Waveform.decodeCompressed a.selected m.body)
  | some .decompressed => a.receivePacket (Waveform.decodeDecompressed a.selected m.body)
  | some .ready => .answer (.ok none) { a with phase := .ready, window := none }
  | some .error => .answer (.error (.server (messageText m.body))) a
  | _ => .again a

def turn (a : Archive) : Turn Next Archive :=
  match Link.receiveMessage a.link with
  | (.error fault, link) =>
    .answer (.error fault)
      { a with link := link, phase := if fault.isConnectionFatal then .closed else a.phase }
  | (.ok message, link) => { a with link := link }.handle message

/-- Reads the next record of the answer; there is none once the archive is ready. -/
def next (a : Archive) : Except Halt (Next × Archive) :=
  match a.phase with
  | .ready => .ok (.ok none, a)
  | .requesting | .receiving => untilAnswer size (fun a => .ok a.turn) a
  | _ => .ok (.error (a.wrongPhase "Requesting|Receiving"), a)

def drain (a : Archive) : Except Halt (Remainder × Archive) :=
  collect size next a

/-- Tells the archive that the session is over, and why, and stops sending. -/
def terminate (reason : ShutdownReason) (text : String) (a : Archive) :
    Except SessionFault Unit × Archive :=
  if a.phase = .closed then (.ok (), a)
  else
    let (result, link) := Link.farewell reason text a.link
    (result, { a with link := link, phase := .closed })

/-! ### Whole retrievals -/

variable {σ : Type}

def feedSize (f : Feed Archive σ) : Nat :=
  f.source.size

/-- Requests the data of a channel in a window, and feeds the answer to a pipeline. -/
def retrieveChannel (pipeline : Pipeline σ) (window : Window) (key : UInt32) (f : Feed Archive σ) :
    Except Halt (Except SessionFault Unit × Feed Archive σ) :=
  match f.source.requestData key window with
  | (.error fault, source) => .ok (.error fault, { f with source := source })
  | (.ok (), source) =>
    untilAnswer feedSize (Feed.turn pipeline next) { f with source := source }

/-- Requests the data of channels one after the other. Answers whether all were requested; none is
once the world wants it stopped. -/
def retrieveChannels (pipeline : Pipeline σ) (isStopped : σ → Bool) (window : Window) :
    List UInt32 → Feed Archive σ → Except Halt (Except SessionFault Bool × Feed Archive σ)
  | [], f => .ok (.ok true, f)
  | key :: keys, f =>
    if isStopped f.world then .ok (.ok false, f)
    else
      match retrieveChannel pipeline window key f with
      | .error halt => .error halt
      | .ok (.error fault, f) => .ok (.error fault, f)
      | .ok (.ok (), f) => retrieveChannels pipeline isStopped window keys f

/-- When a window may be requested: its stop and the delay after it, where that is defined. -/
def dueTime? (window : Window) (delay : Duration) : Option Duration :=
  let stop := Duration.ofSeconds window.stop.toInt.toNat
  let due : Duration := ⟨stop.nanoseconds + delay.nanoseconds⟩
  if due.seconds < UInt64.size then some due else none

/-- Waits until a window may be requested, if the request has a delay, and answers whether to go on.
A wait ends early only if the world wants it stopped. -/
def await? (isStopped : σ → Bool) (request : ArchiveRequest) (window : Window) (world : σ) :
    Except Halt Bool :=
  match request.delay with
  | none => .ok true
  | some delay =>
    match dueTime? window delay with
    | none => .error .undefined
    | some _ => .ok (!isStopped world)

def windowTurn (pipeline : Pipeline σ) (isStopped : σ → Bool) (request : ArchiveRequest)
    (keys : List UInt32) :
    Window × Feed Archive σ →
      Except Halt (Turn (Except SessionFault Unit) (Window × Feed Archive σ))
  | (window, f) =>
    match await? isStopped request window f.world with
    | .error halt => .error halt
    | .ok false => .ok (.answer (.ok ()) (window, f))
    | .ok true =>
      match retrieveChannels pipeline isStopped window keys f with
      | .error halt => .error halt
      | .ok (.error fault, f) => .ok (.answer (.error fault) (window, f))
      | .ok (.ok false, f) => .ok (.answer (.ok ()) (window, f))
      | .ok (.ok true, f) =>
        if request.delay.isNone then .ok (.answer (.ok ()) (window, f))
        else
          match window.next? with
          | none => .error .undefined
          | some window => .ok (.again (window, f))

def retrieveWindows (pipeline : Pipeline σ) (isStopped : σ → Bool) (request : ArchiveRequest)
    (f : Feed Archive σ) : Except Halt (Except SessionFault Unit × Feed Archive σ) :=
  match f.source.select request.patterns request.network with
  | (.error fault, source) => .ok (.error fault, { f with source := source })
  | (.ok selected, source) =>
    (untilAnswer (fun (_, f) => feedSize f) (windowTurn pipeline isStopped request selected.keys)
      (request.window, { f with source := source })).map fun (result, _, f) => (result, f)

/-- Ends a session after a retrieval: in order if it went well, and otherwise with the text of its
fault. -/
def conclude (result : Except SessionFault Unit) (f : Feed Archive σ) :
    Except SessionFault Nat × Feed Archive σ :=
  match result with
  | .ok () =>
    let (ended, source) := f.source.terminate .normal "done"
    (f.total ended, { f with source := source })
  | .error fault =>
    (.error fault, { f with source := (f.source.terminate .error fault.message).2 })

/-- Retrieves everything that a request describes, feeds it to a pipeline and ends the session.
Answers how many records were fed. -/
def run (pipeline : Pipeline σ) (isStopped : σ → Bool) (request : ArchiveRequest) (a : Archive)
    (world : σ) : Except Halt (Except SessionFault Nat × Feed Archive σ) :=
  match request.validate with
  | .error fault => .ok (.error fault, .start a world)
  | .ok () =>
    (retrieveWindows pipeline isStopped request (.start a world)).map fun (result, f) =>
      conclude result f

/-- Connects with a request's login, retrieves everything that it describes and ends the session.
Answers how many records were fed, the world and the network afterwards. -/
def retrieve (pipeline : Pipeline σ) (isStopped : σ → Bool) (request : ArchiveRequest)
    (settings : ClientSettings) (n : Network) (world : σ) :
    Except Halt (Except SessionFault Nat × σ × Network) := do
  match request.validate with
  | .error fault => return (.error fault, world, n)
  | .ok () =>
    match ← connect request.credentials settings (isStopped world) n with
    | (.error fault, n) => return (.error fault, world, n)
    | (.ok a, n) =>
      let (result, f) ← run pipeline isStopped request a world
      return (result, f.world, n.drop f.source.link)

end Archive

end SeisFeed.Session
