import SeisFeed.Channel.Directory
import SeisFeed.Waveform.PacketHeader
import SeisFeed.Waveform.Rate
import SeisFeed.Waveform.Record
/-!
# Packets

The bodies of the two kinds of data message. A compressed body holds the oldest sequence number, a
packet header and bundles of differences; a decompressed body holds its samples as they are.
Decoding checks the form of the body first, then the sample rate, and last whether the directory
knows the channel, so that of two faults the earlier in this order is reported.
-/

namespace SeisFeed.Waveform

open Wire (Bytes Read Field)

inductive PacketFault where
  | bodyTooShort (expected actual : Nat)
  /-- The bundles do not fill the body. -/
  | bundleRemainder (length : Nat)
  /-- The packet only keeps the line busy. -/
  | fillerPacket
  | unknownChannel (key : UInt32)
  /-- The body is longer or shorter than its sample count says. -/
  | lengthMismatch (expected actual : Nat)
  /-- There are samples and no rate to place them in time. -/
  | invalidSampleRate (key : UInt32) (code : UInt8)
  deriving DecidableEq, Repr

def PacketFault.name : PacketFault → String
  | bodyTooShort .. => "BodyTooShort"
  | bundleRemainder _ => "BundleRemainder"
  | fillerPacket => "FillerPacket"
  | unknownChannel _ => "UnknownChannel"
  | lengthMismatch .. => "LengthMismatch"
  | invalidSampleRate .. => "InvalidSampleRate"

def PacketFault.message : PacketFault → String
  | bodyTooShort expected actual =>
    s!"body too short: expected at least {expected}, actual {actual}"
  | bundleRemainder length => s!"bundle area of {length} bytes is not a multiple of {bundleLength}"
  | fillerPacket => "filler packet"
  | unknownChannel key => s!"unknown channel key {Text.hexWord key}"
  | lengthMismatch expected actual => s!"body length mismatch: expected {expected}, actual {actual}"
  | invalidSampleRate key code =>
    s!"invalid sample rate for key {Text.hexWord key} (rate code {code})"

def compressedHeaderLength : Nat := 21

def decompressedHeaderLength : Nat := 20

/-- The channel that has a key, or a fault if the directory does not know it. -/
def resolve (directory : Directory) (key : UInt32) : Except PacketFault Channel :=
  match directory.get? key with
  | none => .error (.unknownChannel key)
  | some channel => .ok channel

/-! ### Compressed bodies -/

/-- Reads what precedes the bundles: the oldest sequence number and the packet header. -/
def readCompressedHeader : Read (Int32 × PacketHeader) := do
  let oldest ← Read.int32
  let header ← PacketHeader.read
  return (oldest, header)

/-- The first sample of a packet and the samples that its bundles lead to. -/
def sampleChain (x0 : Int32) (bundles : Bytes) : List Int32 :=
  (Unpacked.addAll ⟨[x0], x0⟩ bundles).samples

/-- The record of a compressed packet from one channel. The chain of values is one longer than the
samples; the one left over opens the channel's next packet. -/
def compressedRecord (oldest : Int32) (header : PacketHeader) (chain : List Int32)
    (rawLength : Nat) (channel : Channel) : Record where
  key := header.key
  network := channel.network
  station := channel.station
  channel := channel.component
  packetType := Int32.ofNat header.packetType.toNat
  x0 := some header.x0
  lastValue := chain.getLast?
  sequence := some header.sequence.toInt32
  oldestSequence := some oldest
  time := header.time
  samples := chain.dropLast
  sampleRate := rateOfCode header.rateCode
  rawLength := rawLength

def decodeCompressed (directory : Directory) (body : Bytes) : Except PacketFault Record :=
  match readCompressedHeader (Wire.Cursor.start body) with
  | (none, _) => .error (.bodyTooShort compressedHeaderLength body.length)
  | (some (oldest, header), c) =>
    if header.isFiller then .error .fillerPacket
    else if c.remaining % bundleLength ≠ 0 then .error (.bundleRemainder c.remaining)
    else
      let chain := sampleChain header.x0 c.rest
      if rateOfCode header.rateCode = 0 ∧ chain.dropLast ≠ [] then
        .error (.invalidSampleRate header.key header.rateCode)
      else
        (resolve directory header.key).map (compressedRecord oldest header chain body.length)

def encodeCompressed (oldest : Int32) (header : PacketHeader) (bundles : Bytes) : Bytes :=
  Field.encodeAll (.int32 oldest :: header.fields ++ [.bytes bundles])

/-! ### Decompressed bodies -/

/-- What precedes the samples of a decompressed body. The time is kept as the bits of a
floating-point number. -/
structure DecompressedHeader where
  key : UInt32
  timeBits : UInt64
  count : UInt32
  rate : UInt32
  deriving DecidableEq, Repr

namespace DecompressedHeader

def read : Read DecompressedHeader := do
  let key ← Read.word32
  let timeBits ← Read.word64
  let count ← Read.word32
  let rate ← Read.word32
  return ⟨key, timeBits, count, rate⟩

def fields (h : DecompressedHeader) : List Field :=
  [.word32 h.key, .word64 h.timeBits, .word32 h.count, .word32 h.rate]

def bodyLength (h : DecompressedHeader) : Nat :=
  h.count.toNat * 4 + decompressedHeaderLength

end DecompressedHeader

def decompressedRecord (header : DecompressedHeader) (samples : List Int32) (rawLength : Nat)
    (channel : Channel) : Record where
  key := header.key
  network := channel.network
  station := channel.station
  channel := channel.component
  packetType := MessageKind.decompressed.code.toInt32
  x0 := none
  lastValue := none
  sequence := none
  oldestSequence := none
  time := Float.ofBits header.timeBits
  samples := samples
  sampleRate := header.rate.toInt32
  rawLength := rawLength

def decodeDecompressed (directory : Directory) (body : Bytes) : Except PacketFault Record :=
  match DecompressedHeader.read (Wire.Cursor.start body) with
  | (none, _) => .error (.bodyTooShort decompressedHeaderLength body.length)
  | (some header, c) =>
    if body.length ≠ header.bodyLength then
      .error (.lengthMismatch header.bodyLength body.length)
    else
      let samples := (Wire.wholeChunks 4 c.rest).map Wire.toInt32
      if header.rate.toInt32 ≤ 0 ∧ samples ≠ [] then .error (.invalidSampleRate header.key 0)
      else (resolve directory header.key).map (decompressedRecord header samples body.length)

def encodeDecompressed (key : UInt32) (timeBits : UInt64) (rate : UInt32) (samples : List Int32) :
    Bytes :=
  let header : DecompressedHeader := ⟨key, timeBits, UInt32.ofNat samples.length, rate⟩
  Field.encodeAll (header.fields ++ samples.map Field.int32)

end SeisFeed.Waveform
