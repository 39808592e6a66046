import SeisFeed.Channel.Key
import SeisFeed.Waveform.Bundle
import SeisFeed.Wire.Field
/-!
# Packet headers

The first seventeen bytes of a compressed packet say where its samples come from, when the first was
taken, and its value.
-/

namespace SeisFeed.Waveform

open Wire (Bytes Read Field)

/-- What a compressed packet says of itself. -/
structure PacketHeader where
  packetType : UInt8
  /-- Whole seconds since 1970. -/
  seconds : UInt32
  /-- Ten-thousandths of a second on top of them. -/
  ticks : UInt16
  instrumentId : UInt16
  sequence : UInt32
  /-- The rate code in the high five bits, the channel code in the low three. -/
  rateByte : UInt8
  /-- The first sample. -/
  x0 : Int32
  deriving DecidableEq, Repr

namespace PacketHeader

def read : Read PacketHeader := do
  let packetType ← Read.byte
  let seconds ← Read.word32
  let ticks ← Read.word16
  let instrumentId ← Read.word16
  let sequence ← Read.word32
  let rateByte ← Read.byte
  let x0 ← Read.int24
  return ⟨packetType, seconds, ticks, instrumentId, sequence, rateByte, x0⟩

def fields (h : PacketHeader) : List Field :=
  [.byte h.packetType, .word32 h.seconds, .word16 h.ticks, .word16 h.instrumentId,
    .word32 h.sequence, .byte h.rateByte, .int24 h.x0]

/-- The bytes of a header. Of the first sample only the low 24 bits travel. -/
def encode (h : PacketHeader) : Bytes :=
  Field.encodeAll h.fields

def isFiller (h : PacketHeader) : Bool :=
  h.packetType &&& 0x0F == fillerControl

def rateCode (h : PacketHeader) : UInt8 :=
  h.rateByte >>> 3

def channelCode (h : PacketHeader) : UInt8 :=
  h.rateByte &&& 0x07

/-- The key of the channel; compressed packets always carry time series. -/
def key (h : PacketHeader) : UInt32 :=
  makeKey h.instrumentId DataType.timeseries.code h.channelCode

def time (h : PacketHeader) : Float :=
  h.seconds.toFloat + h.ticks.toFloat / 10000.0

end PacketHeader

end SeisFeed.Waveform
