import SeisFeed.Checksum
import SeisFeed.Message.Frame
/-!
# Requests

The messages a client sends. A body is written field by field; a server reads it back with
`Request.parse`, which ignores whatever follows the fields it knows.
-/

namespace SeisFeed

open Wire (Bytes Read Field)

/-- The bytes of a login's user name field; the last one stays zero. -/
def usernameLength : Nat := 12

def archiveProtocolVersion : Int32 := 0

/-- The output rate that stands for the native sample rate. -/
def nativeRate : Int32 := -1

/-- Why a subscription or session is ended. -/
inductive ShutdownReason where
  | normal
  | error
  | timeout
  deriving DecidableEq, Repr

namespace ShutdownReason

def code : ShutdownReason → Int32
  | normal => 1
  | error => 2
  | timeout => 3

def name : ShutdownReason → String
  | normal => "Normal"
  | error => "Error"
  | timeout => "Timeout"

def ofCode? (code : Int32) : Option ShutdownReason :=
  [normal, error, timeout].find? fun reason => reason.code == code

end ShutdownReason

inductive Request where
  | connect
  | requestPending
  /-- Subscribes to channels. The completion is -1 for raw packets, 0 for no wait, and otherwise the
  seconds to wait for missing packets. -/
  | addTimeSeriesChannels (keys : List UInt32) (shortTermCompletion outFormat : Int32)
      (buffered : Bool)
  | connectRequest (username : String) (connectionTime : Int32) (checksum : UInt32)
  | channelListRequest
  /-- Asks an archive for the time ranges it holds; -1 stands for any. -/
  | precisListRequest (instrumentId dataType channel : Int32)
  | dataRequest (key : UInt32) (start stop : Int32)
  | terminateSubscription (reason : ShutdownReason) (text : String)
  deriving DecidableEq, Repr

namespace Request

/-- The login of a user. The checksum covers the user name, the protocol version, the connection
time the server sent and the password, as one text. -/
def login (username password : String) (connectionTime : Int32) : Except ProtocolFault Request :=
  let length := (Text.Utf8.encode username).length
  if usernameLength ≤ length then .error (.usernameTooLong length)
  else
    let text := s!"{username}{archiveProtocolVersion.toInt}{connectionTime.toInt}{password}"
    .ok (.connectRequest username connectionTime (Checksum.crc32 (Text.Utf8.encode text)))

def kind : Request → MessageKind
  | connect => .connect
  | requestPending => .requestPending
  | addTimeSeriesChannels .. => .addTimeSeriesChannels
  | connectRequest .. => .connectRequest
  | channelListRequest => .channelListRequest
  | precisListRequest .. => .precisListRequest
  | dataRequest .. => .dataRequest
  | terminateSubscription .. => .terminateSubscription

def fields : Request → List Field
  | connect | requestPending | channelListRequest => []
  | addTimeSeriesChannels keys shortTermCompletion outFormat buffered =>
    .int32 (Int32.ofNat keys.length) :: keys.map Field.word32 ++
      [.int32 shortTermCompletion, .int32 outFormat, .int32 (if buffered then 1 else 0)]
  | connectRequest username connectionTime checksum =>
    [.text username usernameLength, .int32 archiveProtocolVersion, .int32 connectionTime,
      .word32 checksum]
  | precisListRequest instrumentId dataType channel =>
    [.int32 instrumentId, .int32 dataType, .int32 channel]
  | dataRequest key start stop => [.word32 key, .int32 start, .int32 stop]
  | terminateSubscription reason text => [.int32 reason.code, .bytes (Text.Utf8.encode text)]

def body (r : Request) : Bytes :=
  Field.encodeAll r.fields

def encode (r : Request) : Bytes :=
  encodeMessage r.kind r.body

/-- Reads the body of a subscription. A negative count counts as none. -/
def readAddTimeSeriesChannels : Read Request := do
  let count ← Read.int32
  let keys ← Read.many Read.word32 count.toNatClampNeg
  let shortTermCompletion ← Read.int32
  let outFormat ← Read.int32
  let buffered ← Read.int32
  return .addTimeSeriesChannels keys shortTermCompletion outFormat (buffered ≠ 0)

/-- Reads the body of a login; its version is not looked at. -/
def readConnectRequest : Read Request := do
  let username ← Read.text usernameLength
  let _version ← Read.int32
  let connectionTime ← Read.int32
  let checksum ← Read.word32
  return .connectRequest username connectionTime checksum

def readPrecisListRequest : Read Request := do
  let instrumentId ← Read.int32
  let dataType ← Read.int32
  let channel ← Read.int32
  return .precisListRequest instrumentId dataType channel

def readDataRequest : Read Request := do
  let key ← Read.word32
  let start ← Read.int32
  let stop ← Read.int32
  return .dataRequest key start stop

/-- Reads the body of a session's end. A reason of unknown code counts as an error. -/
def readTerminateSubscription : Read Request := do
  let code ← Read.int32
  let text ← Read.rest
  return .terminateSubscription ((ShutdownReason.ofCode? code).getD .error) (messageText text)

/-- How the body of a client's message is read; no other kind of message is a request. -/
def reading? : MessageKind → Option (Read Request)
  | .connect => some (pure .connect)
  | .requestPending => some (pure .requestPending)
  | .channelListRequest => some (pure .channelListRequest)
  | .addTimeSeriesChannels => some readAddTimeSeriesChannels
  | .connectRequest => some readConnectRequest
  | .precisListRequest => some readPrecisListRequest
  | .dataRequest => some readDataRequest
  | .terminateSubscription => some readTerminateSubscription
  | _ => none

/-- The request that a message of the given type code carries. A body that ends too early is
reported as one byte short. -/
def parse (code : UInt32) (body : Bytes) : Except ProtocolFault Request :=
  match (MessageKind.ofCode? code).bind reading? with
  | none => .error (.unexpectedMessage .connect code)
  | some reading =>
    match reading.run body with
    | none => .error (.frameTooShort (body.length + 1) body.length)
    | some request => .ok request

end Request

end SeisFeed
