/-!
# Kinds of message

Every message begins with a numeric type code. Sixteen codes have a meaning; a receiver passes over
the messages of any other.
-/

namespace SeisFeed

/-- The kinds of message, of servers first and then of clients. -/
inductive MessageKind where
  | compressed
  | decompressed
  | trigger
  | event
  | channelList
  | error
  | ready
  | precisList
  | connect
  | requestPending
  | addTimeSeriesChannels
  | connectRequest
  | precisListRequest
  | channelListRequest
  | dataRequest
  | terminateSubscription
  deriving DecidableEq, Repr

namespace MessageKind

def code : MessageKind → UInt32
  | compressed => 1
  | decompressed => 4
  | trigger => 5
  | event => 6
  | channelList => 150
  | error => 190
  | ready => 208
  | precisList => 253
  | connect => 100
  | requestPending => 110
  | addTimeSeriesChannels => 120
  | connectRequest => 206
  | precisListRequest => 203
  | channelListRequest => 209
  | dataRequest => 227
  | terminateSubscription => 200

def name : MessageKind → String
  | compressed => "Compressed"
  | decompressed => "Decompressed"
  | trigger => "Trigger"
  | event => "Event"
  | channelList => "ChannelList"
  | error => "Error"
  | ready => "Ready"
  | precisList => "PrecisList"
  | connect => "Connect"
  | requestPending => "RequestPending"
  | addTimeSeriesChannels => "AddTimeSeriesChannels"
  | connectRequest => "ConnectRequest"
  | precisListRequest => "PrecisListRequest"
  | channelListRequest => "ChannelListRequest"
  | dataRequest => "DataRequest"
  | terminateSubscription => "TerminateSubscription"

def all : List MessageKind :=
  [compressed, decompressed, trigger, event, channelList, error, ready, precisList, connect,
    requestPending, addTimeSeriesChannels, connectRequest, precisListRequest, channelListRequest,
    dataRequest, terminateSubscription]

def ofCode? (code : UInt32) : Option MessageKind :=
  all.find? fun kind => kind.code == code

@[simp] theorem ofCode?_code (kind : MessageKind) : ofCode? kind.code = some kind := by
  cases kind <;> rfl

end MessageKind

end SeisFeed
