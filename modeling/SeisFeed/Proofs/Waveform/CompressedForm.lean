import SeisFeed.Proofs.Channel.Lookup
import SeisFeed.Proofs.Waveform.Differences
import SeisFeed.Waveform.Packet
/-!
# The form of compressed bodies

A compressed body is 21 bytes of header and then bundles. `CompressedOutcome` says of every body and
directory what the body stands for: the first of five faults in a fixed order, or a record each of
whose fields is told by the bytes at fixed places. `decodeCompressed_eq_iff` is that decoding finds
just this outcome.

The samples of a packet are one fewer than its chain of values, which starts with the first sample
and runs through the differences; the value left over belongs to the channel's next packet.
-/

namespace SeisFeed.Waveform

open Wire (Bytes Read byteAt bits16At bits24At bits32At)

/-! ### Fields at their places -/

/-- The header that bytes begin with, its fields read where they lie. -/
def PacketHeader.ofBytes (bytes : Bytes) : PacketHeader where
  packetType := byteAt bytes 0
  seconds := ⟨bits32At bytes 1⟩
  ticks := ⟨bits16At bytes 5⟩
  instrumentId := ⟨bits16At bytes 7⟩
  sequence := ⟨bits32At bytes 9⟩
  rateByte := byteAt bytes 13
  x0 := ⟨⟨(bits24At bytes 14).signExtend 32⟩⟩

/-- The reading of a header passes its 17 bytes and finds the fields at their places. -/
theorem PacketHeader.reads_read : Read.Reads PacketHeader.read 17 PacketHeader.ofBytes := by
  have hfields := Read.reads_byte.bind fun packetType => Read.reads_word32.bind fun seconds =>
    Read.reads_word16.bind fun ticks => Read.reads_word16.bind fun instrumentId =>
    Read.reads_word32.bind fun sequence => Read.reads_byte.bind fun rateByte =>
    Read.reads_int24.map fun x0 => PacketHeader.mk packetType seconds ticks instrumentId
      sequence rateByte x0
  refine hfields.congr fun bytes hbytes => ?_
  have htype := Wire.toByte_slice bytes 0 (by omega)
  -- The first sample is the last field: its three bytes are all that is left.
  have hx0 := Wire.signExtend24_slice bytes 14 (by omega)
  rw [List.take_of_length_le (by rw [List.length_drop]; omega)] at hx0
  rw [List.drop_zero] at htype
  simp only [List.drop_drop, Nat.reduceAdd, hx0, htype, PacketHeader.ofBytes,
    Wire.toWord32_slice bytes 1 (by omega), Wire.toWord16_slice bytes 5 (by omega),
    Wire.toWord16_slice bytes 7 (by omega), Wire.toWord32_slice bytes 9 (by omega),
    Wire.toByte_slice bytes 13 (by omega)]

/-- The header of a compressed body, its fields read where they lie. -/
def headerOf (body : Bytes) : PacketHeader where
  packetType := byteAt body 4
  seconds := ⟨bits32At body 5⟩
  ticks := ⟨bits16At body 9⟩
  instrumentId := ⟨bits16At body 11⟩
  sequence := ⟨bits32At body 13⟩
  rateByte := byteAt body 17
  x0 := ⟨⟨(bits24At body 18).signExtend 32⟩⟩

/-- The oldest sequence number that a compressed body tells. -/
def oldestOf (body : Bytes) : Int32 :=
  ⟨⟨bits32At body 0⟩⟩

/-- The key of the channel that a compressed body comes from: its instrument, the type of time
series, and the low three bits of the rate byte. -/
def keyOf (body : Bytes) : UInt32 :=
  (headerOf body).instrumentId.toUInt32 <<< 16 ||| (1 : UInt32) <<< 8 |||
    ((headerOf body).rateByte &&& 7).toUInt32

/-- The sample rate that the high five bits of the rate byte stand for. -/
def rateOf (body : Bytes) : Int32 :=
  rateOfCode ((headerOf body).rateByte >>> 3)

def differencesOf (body : Bytes) : List Int32 :=
  differences (body.drop 21)

/-- The first sample of a compressed body and its wrapping sums with the differences so far. -/
def chainOf (body : Bytes) : List Int32 :=
  (differencesOf body).scanl (· + ·) (headerOf body).x0

theorem headerOf_eq (body : Bytes) : headerOf body = .ofBytes (body.drop 4) := by
  simp [headerOf, PacketHeader.ofBytes, bits32At, bits24At, bits16At, byteAt,
    List.getD_eq_getElem?_getD]

theorem reads_compressedHeader :
    Read.Reads readCompressedHeader 21 fun body => (oldestOf body, headerOf body) := by
  have hfields := Read.reads_int32.bind fun oldest =>
    PacketHeader.reads_read.map fun header => (oldest, header)
  refine hfields.congr fun body hbody => ?_
  have holdest : Wire.toInt32 (body.take 4) = oldestOf body :=
    congrArg UInt32.toInt32 (Wire.toWord32_slice body 0 (by omega))
  rw [holdest, headerOf_eq]

theorem headerOf_take (body : Bytes) : headerOf (body.take 21) = headerOf body := by
  simp [headerOf, bits32At, bits24At, bits16At, byteAt, List.getD_eq_getElem?_getD]

theorem oldestOf_take (body : Bytes) : oldestOf (body.take 21) = oldestOf body := by
  simp [oldestOf, bits32At, bits24At, bits16At, byteAt, List.getD_eq_getElem?_getD]

theorem key_headerOf (body : Bytes) : (headerOf body).key = keyOf body := rfl

theorem sampleChain_eq (body : Bytes) :
    sampleChain (headerOf body).x0 (body.drop 21) = chainOf body := by
  rw [sampleChain, Unpacked.addAll, Unpacked.addBundles, flatMap_bundleDiffs, Unpacked.add, chainOf,
    ← cons_runningSums]
  rfl

theorem length_chainOf (body : Bytes) :
    (chainOf body).length = (differencesOf body).length + 1 := by
  rw [chainOf, List.length_scanl]

theorem dropLast_chainOf_eq_nil_iff (body : Bytes) :
    (chainOf body).dropLast = [] ↔ differencesOf body = [] := by
  rw [← List.length_eq_zero_iff, List.length_dropLast, length_chainOf, Nat.add_sub_cancel,
    List.length_eq_zero_iff]

/-! ### Outcomes -/

/-- A record holds what a compressed body and the entry of its channel tell. -/
structure Tells (body : Bytes) (channel : Channel) (record : Record) : Prop where
  key : record.key = keyOf body
  network : record.network = channel.network
  name : SplitAtDot channel.name record.station record.channel
  packetType : record.packetType = Int32.ofNat (headerOf body).packetType.toNat
  x0 : record.x0 = some (headerOf body).x0
  sequence : record.sequence = some ⟨(headerOf body).sequence⟩
  oldestSequence : record.oldestSequence = some (oldestOf body)
  time : record.time = (headerOf body).seconds.toFloat + (headerOf body).ticks.toFloat / 10000.0
  sampleRate : record.sampleRate = rateOf body
  rawLength : record.rawLength = body.length
  /-- The samples and the value that follows them are the chain. -/
  chain : ∃ last, record.lastValue = some last ∧ record.samples ++ [last] = chainOf body
  length : record.samples.length + 1 = (chainOf body).length
  noSamples : record.samples = [] ↔ differencesOf body = []

/-- The record that is made of a body and a channel is the one that holds what they tell. -/
theorem tells_iff (body : Bytes) (channel : Channel) (record : Record) :
    Tells body channel record ↔
      record =
        compressedRecord (oldestOf body) (headerOf body) (chainOf body) body.length channel := by
  constructor
  · intro h
    have hname := (splitName_eq_iff _ _ _).2 h.name
    obtain ⟨last, hlast, hchain⟩ := h.chain
    have hsamples : record.samples = (chainOf body).dropLast := by
      rw [← hchain, List.dropLast_concat]
    have hlast' : record.lastValue = (chainOf body).getLast? := by
      rw [← hchain, List.getLast?_concat, hlast]
    cases record
    simp only [compressedRecord, Channel.station, Channel.component, hname, Record.mk.injEq]
    exact ⟨h.key, h.network, trivial, trivial, h.packetType, h.x0, hlast', h.sequence,
      h.oldestSequence, h.time, hsamples, h.sampleRate, h.rawLength⟩
  · rintro rfl
    have hne : chainOf body ≠ [] := by
      rw [← List.length_pos_iff, length_chainOf]
      exact Nat.succ_pos _
    exact {
      key := rfl
      network := rfl
      name := (splitName_eq_iff _ _ _).1 rfl
      packetType := rfl
      x0 := rfl
      sequence := rfl
      oldestSequence := rfl
      time := rfl
      sampleRate := rfl
      rawLength := rfl
      chain := ⟨(chainOf body).getLast hne, List.getLast?_eq_getLast_of_ne_nil hne,
        List.dropLast_append_getLast hne⟩
      length := by
        show (chainOf body).dropLast.length + 1 = _
        rw [List.length_dropLast, length_chainOf, Nat.add_sub_cancel]
      noSamples := dropLast_chainOf_eq_nil_iff body }

/-- What a compressed body stands for under a directory. Each case but the first supposes that none
before it holds. -/
inductive CompressedOutcome (directory : Directory) (body : Bytes) :
    Except PacketFault Record → Prop where
  | bodyTooShort (hshort : body.length < 21) :
      CompressedOutcome directory body (.error (.bodyTooShort 21 body.length))
  | fillerPacket (hlong : 21 ≤ body.length) (hfiller : (headerOf body).packetType &&& 0x0F = 9) :
      CompressedOutcome directory body (.error .fillerPacket)
  | bundleRemainder (hlong : 21 ≤ body.length) (hdata : (headerOf body).packetType &&& 0x0F ≠ 9)
      (hremainder : (body.length - 21) % 17 ≠ 0) :
      CompressedOutcome directory body (.error (.bundleRemainder (body.length - 21)))
  | invalidSampleRate (hlong : 21 ≤ body.length) (hdata : (headerOf body).packetType &&& 0x0F ≠ 9)
      (hwhole : (body.length - 21) % 17 = 0) (hrate : rateOf body = 0)
      (hsamples : differencesOf body ≠ []) :
      CompressedOutcome directory body
        (.error (.invalidSampleRate (keyOf body) ((headerOf body).rateByte >>> 3)))
  | unknownChannel (hlong : 21 ≤ body.length) (hdata : (headerOf body).packetType &&& 0x0F ≠ 9)
      (hwhole : (body.length - 21) % 17 = 0) (hrate : rateOf body = 0 → differencesOf body = [])
      (hunknown : ∀ c ∈ directory.channels, c.key ≠ keyOf body) :
      CompressedOutcome directory body (.error (.unknownChannel (keyOf body)))
  | record {channel : Channel} {record : Record} (hlong : 21 ≤ body.length)
      (hdata : (headerOf body).packetType &&& 0x0F ≠ 9) (hwhole : (body.length - 21) % 17 = 0)
      (hrate : rateOf body = 0 → differencesOf body = []) (hchannel : channel ∈ directory.channels)
      (hkey : channel.key = keyOf body) (hrecord : Tells body channel record) :
      CompressedOutcome directory body (.ok record)

/-! ### Decoding -/

variable (directory : Directory) (body : Bytes)

theorem decodeCompressed_of_short (hshort : body.length < 21) :
    decodeCompressed directory body = .error (.bodyTooShort 21 body.length) := by
  have hread := reads_compressedHeader.short (Wire.Cursor.start body) hshort
  rw [decodeCompressed]
  generalize readCompressedHeader (Wire.Cursor.start body) = answer at hread ⊢
  obtain ⟨_ | header, c⟩ := answer
  · rfl
  · exact nomatch hread

theorem decodeCompressed_of_long (hlong : 21 ≤ body.length) :
    decodeCompressed directory body =
      if (headerOf body).packetType &&& 0x0F = 9 then .error .fillerPacket
      else if (body.length - 21) % 17 ≠ 0 then .error (.bundleRemainder (body.length - 21))
      else if rateOf body = 0 ∧ differencesOf body ≠ [] then
        .error (.invalidSampleRate (keyOf body) ((headerOf body).rateByte >>> 3))
      else
        (resolve directory (keyOf body)).map
          (compressedRecord (oldestOf body) (headerOf body) (chainOf body) body.length) := by
  have hread := reads_compressedHeader.enough (Wire.Cursor.start body) hlong
  have hrest : (Wire.Cursor.mk (0 + 21) (body.drop 21)).remaining = body.length - 21 :=
    List.length_drop
  simp only [Wire.Cursor.start, headerOf_take, oldestOf_take] at hread
  simp only [decodeCompressed, Wire.Cursor.start, hread, hrest, sampleChain_eq, key_headerOf,
    dropLast_chainOf_eq_nil_iff, ne_eq, PacketHeader.isFiller, beq_iff_eq]
  rfl

theorem decodeCompressed_eq_iff (result : Except PacketFault Record) :
    decodeCompressed directory body = result ↔ CompressedOutcome directory body result := by
  constructor
  · rintro rfl
    by_cases hlong : 21 ≤ body.length
    · rw [decodeCompressed_of_long directory body hlong]
      by_cases hfiller : (headerOf body).packetType &&& 0x0F = 9
      · rw [if_pos hfiller]
        exact .fillerPacket hlong hfiller
      rw [if_neg hfiller]
      by_cases hwhole : (body.length - 21) % 17 = 0
      · rw [if_neg (not_not_intro hwhole)]
        by_cases hrate : rateOf body = 0 ∧ differencesOf body ≠ []
        · rw [if_pos hrate]
          exact .invalidSampleRate hlong hfiller hwhole hrate.1 hrate.2
        rw [if_neg hrate]
        have hrate : rateOf body = 0 → differencesOf body = [] := by
          intro hzero
          by_contra hdiffs
          exact hrate ⟨hzero, hdiffs⟩
        rw [resolve]
        cases hget : directory.get? (keyOf body) with
        | none =>
          exact .unknownChannel hlong hfiller hwhole hrate
            ((directory.get?_eq_none_iff _).1 hget)
        | some channel =>
          obtain ⟨hchannel, hkey⟩ := (directory.get?_eq_some_iff _ channel).1 hget
          exact .record hlong hfiller hwhole hrate hchannel hkey ((tells_iff _ _ _).2 rfl)
      · rw [if_pos hwhole]
        exact .bundleRemainder hlong hfiller hwhole
    · rw [decodeCompressed_of_short directory body (by omega)]
      exact .bodyTooShort (by omega)
  · intro h
    cases h with
    | bodyTooShort hshort => exact decodeCompressed_of_short directory body hshort
    | fillerPacket hlong hfiller =>
      rw [decodeCompressed_of_long directory body hlong, if_pos hfiller]
    | bundleRemainder hlong hdata hremainder =>
      rw [decodeCompressed_of_long directory body hlong, if_neg hdata, if_pos hremainder]
    | invalidSampleRate hlong hdata hwhole hrate hsamples =>
      rw [decodeCompressed_of_long directory body hlong, if_neg hdata,
        if_neg (not_not_intro hwhole), if_pos ⟨hrate, hsamples⟩]
    | unknownChannel hlong hdata hwhole hrate hunknown =>
      rw [decodeCompressed_of_long directory body hlong, if_neg hdata,
        if_neg (not_not_intro hwhole), if_neg fun h => h.2 (hrate h.1), resolve,
        (directory.get?_eq_none_iff _).2 hunknown]
      rfl
    | record hlong hdata hwhole hrate hchannel hkey hrecord =>
      rw [decodeCompressed_of_long directory body hlong, if_neg hdata,
        if_neg (not_not_intro hwhole), if_neg fun h => h.2 (hrate h.1), resolve,
        (directory.get?_eq_some_iff _ _).2 ⟨hchannel, hkey⟩, (tells_iff _ _ _).1 hrecord]
      rfl

end SeisFeed.Waveform
