/-!
# Channel keys

A channel is known by a 32-bit key: the instrument in the high sixteen bits, the type of its data in
the next eight and the channel of the instrument in the last eight.
-/

namespace SeisFeed

/-- The types of data a channel can carry. Other codes occur and have no name. -/
inductive DataType where
  | timeseries
  | soh
  | trigger
  | event
  | serial
  | transparentSerial
  deriving DecidableEq, Repr

namespace DataType

def code : DataType → UInt8
  | timeseries => 1
  | soh => 2
  | trigger => 3
  | event => 4
  | serial => 6
  | transparentSerial => 7

def name : DataType → String
  | timeseries => "Timeseries"
  | soh => "Soh"
  | trigger => "Trigger"
  | event => "Event"
  | serial => "Serial"
  | transparentSerial => "TransparentSerial"

def ofCode? (code : UInt8) : Option DataType :=
  [timeseries, soh, trigger, event, serial, transparentSerial].find? fun type => type.code == code

end DataType

def makeKey (instrumentId : UInt16) (dataType channelCode : UInt8) : UInt32 :=
  instrumentId.toUInt32 <<< 16 ||| dataType.toUInt32 <<< 8 ||| channelCode.toUInt32

def keyInstrument (key : UInt32) : UInt16 :=
  (key >>> 16).toUInt16

def keyDataType (key : UInt32) : UInt8 :=
  (key >>> 8).toUInt8

def keyChannelCode (key : UInt32) : UInt8 :=
  key.toUInt8

end SeisFeed
