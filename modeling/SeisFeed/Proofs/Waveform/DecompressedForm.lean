import Mathlib
import SeisFeed.Proofs.Waveform.CompressedForm
import SeisFeed.Proofs.Wire.Chunks
import SeisFeed.Proofs.Wire.Undoing
/-!
# The form of decompressed bodies

A decompressed body is 20 bytes of header and then its samples, four bytes each, as many as the
header says. `DecompressedOutcome` says of every body and directory what the body stands for: the
first of four faults in a fixed order, or a record. Writing undoes decoding: every body that is
accepted is written again byte for byte from its record, and every record that has a rate for its
samples is read back.

The time of a record is a floating-point number. Of the patterns of bits that are no number one
stands for all, so from those the pattern cannot be told again; from every other it can. The lemma
on packing that says so comes with the whole of Mathlib and with no smaller part of it.
-/

namespace SeisFeed.Waveform

open Wire (Bytes Read Field byteAt bits32At bits64At)

/-! ### Times -/

theorem toBits_ofBits {bits : UInt64} (h : (Float.ofBits bits).isNaN = false) :
    (Float.ofBits bits).toBits = bits := by
  have hpack := @Float.Model.UnpackedFloat.pack_unpack .binary64 bits.toBitVec (by decide)
  split at hpack
  · have hnan : (Float.ofBits bits).isNaN = true := by
      show (Float.Model.UnpackedFloat.unpack _ (Float.Model.UnpackedFloat.pack _ _)).isNaN = true
      rw [hpack, Float.Model.UnpackedFloat.unpack_packedNaN]
      rfl
    rw [hnan] at h
    cases h
  · exact congrArg UInt64.ofBitVec hpack

/-! ### Fields at their places -/

/-- The header of a decompressed body, its fields read where they lie. -/
def DecompressedHeader.ofBody (body : Bytes) : DecompressedHeader where
  key := ⟨bits32At body 0⟩
  timeBits := ⟨bits64At body 4⟩
  count := ⟨bits32At body 12⟩
  rate := ⟨bits32At body 16⟩

/-- The samples of a decompressed body, each four bytes behind the one before. -/
def samplesOf (body : Bytes) : List Int32 :=
  (List.range ((body.length - 20) / 4)).map fun i => ⟨⟨bits32At body (20 + 4 * i)⟩⟩

theorem reads_decompressedHeader :
    Read.Reads DecompressedHeader.read 20 DecompressedHeader.ofBody := by
  have hfields := Read.reads_word32.bind fun key => Read.reads_word64.bind fun timeBits =>
    Read.reads_word32.bind fun count => Read.reads_word32.map fun rate =>
      DecompressedHeader.mk key timeBits count rate
  refine hfields.congr fun body hbody => ?_
  have hkey := Wire.toWord32_slice body 0 (by omega)
  have hrate := Wire.toWord32_slice body 16 (by omega)
  rw [List.take_of_length_le (by rw [List.length_drop]; omega)] at hrate
  simp only [List.drop_zero] at hkey
  simp only [List.drop_drop, Nat.reduceAdd, hkey, hrate, DecompressedHeader.ofBody,
    Wire.toWord64_slice body 4 (by omega), Wire.toWord32_slice body 12 (by omega)]

theorem ofBody_take (body : Bytes) :
    DecompressedHeader.ofBody (body.take 20) = DecompressedHeader.ofBody body := by
  simp [DecompressedHeader.ofBody, bits64At, bits32At, Wire.bits24At, Wire.bits16At, byteAt,
    List.getD_eq_getElem?_getD]

theorem wholeChunks_eq_samplesOf (body : Bytes) :
    (Wire.wholeChunks 4 (body.drop 20)).map Wire.toInt32 = samplesOf body := by
  rw [Wire.wholeChunks, chunks_eq_map, List.map_map, List.length_drop, samplesOf]
  apply List.map_congr_left
  intro i hi
  have hinside := List.mem_range.1 hi
  have hword := Wire.toWord32_slice body (20 + 4 * i) (by omega)
  rw [← List.drop_drop] at hword
  exact congrArg UInt32.toInt32 hword

/-! ### Outcomes -/

/-- A record holds what a decompressed body and the entry of its channel tell. -/
structure TellsSamples (body : Bytes) (channel : Channel) (record : Record) : Prop where
  key : record.key = (DecompressedHeader.ofBody body).key
  network : record.network = channel.network
  name : SplitAtDot channel.name record.station record.channel
  packetType : record.packetType = 4
  x0 : record.x0 = none
  lastValue : record.lastValue = none
  sequence : record.sequence = none
  oldestSequence : record.oldestSequence = none
  time : record.time = Float.ofBits (DecompressedHeader.ofBody body).timeBits
  samples : record.samples = samplesOf body
  sampleRate : record.sampleRate = (DecompressedHeader.ofBody body).rate.toInt32
  rawLength : record.rawLength = body.length

theorem tellsSamples_iff (body : Bytes) (channel : Channel) (record : Record) :
    TellsSamples body channel record ↔
      record = decompressedRecord (.ofBody body) (samplesOf body) body.length channel := by
  constructor
  · intro h
    have hname := (splitName_eq_iff _ _ _).2 h.name
    cases record
    simp only [decompressedRecord, Channel.station, Channel.component, hname, Record.mk.injEq]
    exact ⟨h.key, h.network, trivial, trivial, h.packetType, h.x0, h.lastValue, h.sequence,
      h.oldestSequence, h.time, h.samples, h.sampleRate, h.rawLength⟩
  · rintro rfl
    exact {
      key := rfl
      network := rfl
      name := (splitName_eq_iff _ _ _).1 rfl
      packetType := rfl
      x0 := rfl
      lastValue := rfl
      sequence := rfl
      oldestSequence := rfl
      time := rfl
      samples := rfl
      sampleRate := rfl
      rawLength := rfl }

/-- The body is as long as its header says: 20 bytes and four for each sample. -/
def FullLength (body : Bytes) : Prop :=
  body.length = 20 + 4 * (DecompressedHeader.ofBody body).count.toNat

/-- The rate is positive when it is read as a signed number. -/
def HasRate (body : Bytes) : Prop :=
  0 < (DecompressedHeader.ofBody body).rate.toInt32

instance (body : Bytes) : Decidable (FullLength body) :=
  inferInstanceAs (Decidable (_ = _))

instance (body : Bytes) : Decidable (HasRate body) :=
  inferInstanceAs (Decidable (_ < _))

/-- What a decompressed body stands for under a directory. Each case but the first supposes that
none before it holds. -/
inductive DecompressedOutcome (directory : Directory) (body : Bytes) :
    Except PacketFault Record → Prop where
  | bodyTooShort (hshort : body.length < 20) :
      DecompressedOutcome directory body (.error (.bodyTooShort 20 body.length))
  | lengthMismatch (hlong : 20 ≤ body.length) (hlength : ¬ FullLength body) :
      DecompressedOutcome directory body (.error
        (.lengthMismatch (20 + 4 * (DecompressedHeader.ofBody body).count.toNat) body.length))
  | invalidSampleRate (hlength : FullLength body)
      (hsamples : (DecompressedHeader.ofBody body).count ≠ 0) (hrate : ¬ HasRate body) :
      DecompressedOutcome directory body
        (.error (.invalidSampleRate (DecompressedHeader.ofBody body).key 0))
  | unknownChannel (hlength : FullLength body)
      (hrate : (DecompressedHeader.ofBody body).count ≠ 0 → HasRate body)
      (hunknown : ∀ c ∈ directory.channels, c.key ≠ (DecompressedHeader.ofBody body).key) :
      DecompressedOutcome directory body
        (.error (.unknownChannel (DecompressedHeader.ofBody body).key))
  | record {channel : Channel} {record : Record} (hlength : FullLength body)
      (hrate : (DecompressedHeader.ofBody body).count ≠ 0 → HasRate body)
      (hchannel : channel ∈ directory.channels)
      (hkey : channel.key = (DecompressedHeader.ofBody body).key)
      (hrecord : TellsSamples body channel record) :
      DecompressedOutcome directory body (.ok record)

/-! ### Decoding -/

section Decoding

variable (directory : Directory) {body : Bytes}

theorem decodeDecompressed_of_short (hshort : body.length < 20) :
    decodeDecompressed directory body = .error (.bodyTooShort 20 body.length) := by
  obtain ⟨c, hread⟩ := reads_decompressedHeader.exists_eq_none (c := .start body) hshort
  rw [decodeDecompressed, hread]
  rfl

theorem bodyLength_eq (header : DecompressedHeader) :
    header.bodyLength = 20 + 4 * header.count.toNat := by
  rw [DecompressedHeader.bodyLength, decompressedHeaderLength, Nat.add_comm, Nat.mul_comm]

theorem decodeDecompressed_of_long (hlong : 20 ≤ body.length) :
    decodeDecompressed directory body =
      if ¬ FullLength body then .error
        (.lengthMismatch (20 + 4 * (DecompressedHeader.ofBody body).count.toNat) body.length)
      else if ¬ HasRate body ∧ samplesOf body ≠ [] then
        .error (.invalidSampleRate (DecompressedHeader.ofBody body).key 0)
      else
        (resolve directory (DecompressedHeader.ofBody body).key).map
          (decompressedRecord (.ofBody body) (samplesOf body) body.length) := by
  have hread := reads_decompressedHeader.enough (.start body) hlong
  simp only [Wire.Cursor.start, ofBody_take] at hread
  simp only [decodeDecompressed, Wire.Cursor.start, hread, wholeChunks_eq_samplesOf, bodyLength_eq,
    FullLength, HasRate, Int32.not_lt, ne_eq]

namespace FullLength

theorem long (h : FullLength body) : 20 ≤ body.length := by
  rw [h]
  exact Nat.le_add_right _ _

theorem length_samplesOf (h : FullLength body) :
    (samplesOf body).length = (DecompressedHeader.ofBody body).count.toNat := by
  rw [samplesOf, List.length_map, List.length_range, h]
  omega

theorem samplesOf_eq_nil_iff (h : FullLength body) :
    samplesOf body = [] ↔ (DecompressedHeader.ofBody body).count = 0 := by
  rw [← List.length_eq_zero_iff, h.length_samplesOf, ← UInt32.toNat_inj, UInt32.toNat_zero]

/-- Where the length is right, the rate and then the key decide. -/
theorem decodeDecompressed_eq (h : FullLength body) :
    decodeDecompressed directory body =
      if ¬ HasRate body ∧ (DecompressedHeader.ofBody body).count ≠ 0 then
        .error (.invalidSampleRate (DecompressedHeader.ofBody body).key 0)
      else
        (resolve directory (DecompressedHeader.ofBody body).key).map
          (decompressedRecord (.ofBody body) (samplesOf body) body.length) := by
  rw [decodeDecompressed_of_long directory h.long, if_neg (not_not_intro h)]
  simp only [ne_eq, h.samplesOf_eq_nil_iff]

end FullLength

theorem decompressedOutcome_decode (body : Bytes) :
    DecompressedOutcome directory body (decodeDecompressed directory body) := by
  by_cases hlong : 20 ≤ body.length
  · by_cases hlength : FullLength body
    · rw [hlength.decodeDecompressed_eq]
      by_cases hrate : ¬ HasRate body ∧ (DecompressedHeader.ofBody body).count ≠ 0
      · rw [if_pos hrate]
        exact .invalidSampleRate hlength hrate.2 hrate.1
      rw [if_neg hrate]
      have hrate : (DecompressedHeader.ofBody body).count ≠ 0 → HasRate body := by
        intro hsamples
        by_contra hnone
        exact hrate ⟨hnone, hsamples⟩
      rw [resolve]
      cases hget : directory.get? (DecompressedHeader.ofBody body).key with
      | none => exact .unknownChannel hlength hrate ((directory.get?_eq_none_iff _).1 hget)
      | some channel =>
        obtain ⟨hchannel, hkey⟩ := (directory.get?_eq_some_iff _ channel).1 hget
        exact .record hlength hrate hchannel hkey ((tellsSamples_iff _ _ _).2 rfl)
    · rw [decodeDecompressed_of_long directory hlong, if_pos hlength]
      exact .lengthMismatch hlong hlength
  · rw [decodeDecompressed_of_short directory (by omega)]
    exact .bodyTooShort (by omega)

theorem decodeDecompressed_of_outcome {result : Except PacketFault Record}
    (h : DecompressedOutcome directory body result) :
    decodeDecompressed directory body = result := by
  cases h with
  | bodyTooShort hshort => exact decodeDecompressed_of_short directory hshort
  | lengthMismatch hlong hlength =>
    rw [decodeDecompressed_of_long directory hlong, if_pos hlength]
  | invalidSampleRate hlength hsamples hrate =>
    rw [hlength.decodeDecompressed_eq, if_pos ⟨hrate, hsamples⟩]
  | unknownChannel hlength hrate hunknown =>
    rw [hlength.decodeDecompressed_eq, if_neg fun h => h.1 (hrate h.2), resolve,
      (directory.get?_eq_none_iff _).2 hunknown]
    rfl
  | record hlength hrate hchannel hkey hrecord =>
    rw [hlength.decodeDecompressed_eq, if_neg fun h => h.1 (hrate h.2), resolve,
      (directory.get?_eq_some_iff _ _).2 ⟨hchannel, hkey⟩, (tellsSamples_iff _ _ _).1 hrecord]
    rfl

theorem exists_decodeDecompressed_iff (body : Bytes) :
    (∃ r, decodeDecompressed directory body = .ok r) ↔
      20 ≤ body.length ∧ FullLength body ∧
        ((DecompressedHeader.ofBody body).count = 0 ∨ HasRate body) ∧
        (DecompressedHeader.ofBody body).key ∈ directory.keys := by
  constructor
  · rintro ⟨r, hr⟩
    have houtcome := decompressedOutcome_decode directory body
    rw [hr] at houtcome
    cases houtcome with
    | record hlength hrate hchannel hkey _ =>
      exact ⟨hlength.long, hlength, Decidable.or_iff_not_imp_left.2 hrate,
        hkey ▸ List.mem_map_of_mem hchannel⟩
  · rintro ⟨-, hlength, hrate, hkey⟩
    obtain ⟨channel, hchannel, hkey⟩ := List.mem_map.1 hkey
    exact ⟨_, decodeDecompressed_of_outcome directory (.record hlength
      (Decidable.or_iff_not_imp_left.1 hrate) hchannel hkey ((tellsSamples_iff _ _ _).2 rfl))⟩

end Decoding

/-! ### Writing -/

theorem DecompressedHeader.encodeAll_fields (h : DecompressedHeader) :
    Field.encodeAll h.fields = Wire.word32 h.key ++ (Wire.word64 h.timeBits ++
      (Wire.word32 h.count ++ Wire.word32 h.rate)) := by
  simp [fields, Field.encodeAll, Field.encode]

theorem DecompressedHeader.length_encodeAll_fields (h : DecompressedHeader) :
    (Field.encodeAll h.fields).length = 20 := by
  simp only [encodeAll_fields, List.length_append, Wire.length_word32, Wire.word64,
    Wire.length_bigEndian]

theorem DecompressedHeader.undoes_read (h : DecompressedHeader) :
    DecompressedHeader.read.Undoes (Field.encodeAll h.fields) h := by
  rw [encodeAll_fields]
  exact (Read.undoes_word32 _).bind ((Read.undoes_word64 _).bind ((Read.undoes_word32 _).bind
    ((Read.undoes_word32 _).map _)))

section Writing

variable (key : UInt32) (timeBits : UInt64) (rate : UInt32) (samples : List Int32)

theorem encodeDecompressed_eq :
    encodeDecompressed key timeBits rate samples =
      Field.encodeAll (DecompressedHeader.mk key timeBits (UInt32.ofNat samples.length) rate).fields
        ++ samples.flatMap Wire.int32 := by
  rw [encodeDecompressed, Field.encodeAll, List.flatMap_append, List.flatMap_map]
  rfl

theorem ofBody_encode :
    DecompressedHeader.ofBody (encodeDecompressed key timeBits rate samples) =
      ⟨key, timeBits, UInt32.ofNat samples.length, rate⟩ := by
  have hread := reads_decompressedHeader.append
    (DecompressedHeader.length_encodeAll_fields ⟨key, timeBits, .ofNat samples.length, rate⟩) 0 []
  rw [(DecompressedHeader.undoes_read _).whole] at hread
  rw [← ofBody_take, encodeDecompressed_eq,
    List.take_left' (DecompressedHeader.length_encodeAll_fields _)]
  exact (Option.some.inj (congrArg Prod.fst hread)).symm

theorem samplesOf_encode : samplesOf (encodeDecompressed key timeBits rate samples) = samples := by
  rw [← wholeChunks_eq_samplesOf, encodeDecompressed_eq,
    List.drop_left' (DecompressedHeader.length_encodeAll_fields _),
    Wire.wholeChunks_flatMap (by decide) fun i _ => Wire.length_int32 i, List.map_map]
  simp [Function.comp_def]

theorem fullLength_encode (hlength : samples.length < UInt32.size) :
    FullLength (encodeDecompressed key timeBits rate samples) := by
  rw [FullLength, ofBody_encode, UInt32.toNat_ofNat_of_lt' hlength, encodeDecompressed_eq,
    List.length_append, DecompressedHeader.length_encodeAll_fields,
    Wire.length_flatMap_of_width fun i _ => Wire.length_int32 i, Nat.mul_comm]

end Writing

/-- The four pieces of a header and what lies behind it, put together again. -/
theorem pieces_eq (body : Bytes) :
    body.take 4 ++ ((body.drop 4).take 8 ++ ((body.drop 12).take 4 ++
      ((body.drop 16).take 4 ++ body.drop 20))) = body := by
  rw [Wire.slice_append_drop body 16 4, Wire.slice_append_drop body 12 4,
    Wire.slice_append_drop body 4 8, List.take_append_drop]

theorem FullLength.flatMap_samplesOf {body : Bytes} (h : FullLength body) :
    (samplesOf body).flatMap Wire.int32 = body.drop 20 := by
  have hlength : (body.drop 20).length = (DecompressedHeader.ofBody body).count.toNat * 4 := by
    rw [List.length_drop, h]
    omega
  rw [← wholeChunks_eq_samplesOf, List.flatMap_map]
  exact Wire.flatMap_wholeChunks (by decide) hlength fun chunk hchunk => Wire.int32_toInt32 hchunk

theorem FullLength.encode_ofBody {body : Bytes} (h : FullLength body) :
    encodeDecompressed (DecompressedHeader.ofBody body).key
      (DecompressedHeader.ofBody body).timeBits (DecompressedHeader.ofBody body).rate
      (samplesOf body) = body := by
  have hlong := h.long
  rw [encodeDecompressed_eq, DecompressedHeader.encodeAll_fields, h.length_samplesOf,
    UInt32.ofNat_toNat, h.flatMap_samplesOf]
  simp only [DecompressedHeader.ofBody, Wire.word32_bits32At body _ (by omega : 0 + 4 ≤ _),
    Wire.word64_bits64At body 4 (by omega), Wire.word32_bits32At body 12 (by omega),
    Wire.word32_bits32At body 16 (by omega), List.drop_zero, List.append_assoc]
  exact pieces_eq body

theorem toInt32_pos {rate : UInt32} (h : 1 ≤ rate.toNat) (h' : rate.toNat ≤ 2147483647) :
    0 < rate.toInt32 := by
  have hint : rate.toInt32.toInt = rate.toNat :=
    BitVec.toInt_eq_toNat_of_lt (by show 2 * rate.toNat < 4294967296; omega)
  rw [Int32.lt_iff_toInt_lt, hint]
  show (0 : Int) < rate.toNat
  omega

theorem encodeDecompressed_of_decode {directory : Directory} {body : Bytes} {r : Record}
    (hr : decodeDecompressed directory body = .ok r) :
    ∃ timeBits, r.time = Float.ofBits timeBits ∧
      encodeDecompressed r.key timeBits r.sampleRate.toUInt32 r.samples = body ∧
      (r.time.isNaN = false → timeBits = r.time.toBits) := by
  have houtcome := decompressedOutcome_decode directory body
  rw [hr] at houtcome
  cases houtcome with
  | record hlength _ _ _ hrecord =>
    refine ⟨(DecompressedHeader.ofBody body).timeBits, hrecord.time, ?_, ?_⟩
    · rw [hrecord.key, hrecord.sampleRate, hrecord.samples, UInt32.toUInt32_toInt32]
      exact hlength.encode_ofBody
    · rw [hrecord.time]
      exact fun hnumber => (toBits_ofBits hnumber).symm

theorem decodeDecompressed_encode {directory : Directory} {channel : Channel} {timeBits : UInt64}
    {rate : UInt32} {samples : List Int32} (hchannel : channel ∈ directory.channels)
    (hlength : samples.length < UInt32.size) (hrate : samples = [] ∨ 0 < rate.toInt32) :
    decodeDecompressed directory (encodeDecompressed channel.key timeBits rate samples) =
      .ok (decompressedRecord ⟨channel.key, timeBits, .ofNat samples.length, rate⟩ samples
        (encodeDecompressed channel.key timeBits rate samples).length channel) := by
  have hheader := ofBody_encode channel.key timeBits rate samples
  have hrated : (DecompressedHeader.ofBody
      (encodeDecompressed channel.key timeBits rate samples)).count ≠ 0 →
      HasRate (encodeDecompressed channel.key timeBits rate samples) := by
    rw [HasRate, hheader]
    rcases hrate with rfl | hpos
    · exact fun h => absurd rfl h
    · exact fun _ => hpos
  refine decodeDecompressed_of_outcome directory (.record
    (fullLength_encode channel.key timeBits rate samples hlength) hrated hchannel
    (by rw [hheader]) ((tellsSamples_iff _ _ _).2 ?_))
  rw [hheader, samplesOf_encode]

/-- A body is decoded just if it has a whole header, the length that this says, a rate for its
samples, and a channel that the directory knows; else the first of these that it lacks is reported.
From what is decoded the body is written again byte for byte, and what is written is decoded. -/
theorem decompressed_read_and_written (directory : Directory) :
    (∀ body, (∃ r, decodeDecompressed directory body = .ok r) ↔
      20 ≤ body.length ∧ FullLength body ∧
        ((DecompressedHeader.ofBody body).count = 0 ∨ HasRate body) ∧
        (DecompressedHeader.ofBody body).key ∈ directory.keys) ∧
    (∀ body result, decodeDecompressed directory body = result ↔
      DecompressedOutcome directory body result) ∧
    (∀ body r, decodeDecompressed directory body = .ok r →
      ∃ timeBits, r.time = Float.ofBits timeBits ∧
        encodeDecompressed r.key timeBits r.sampleRate.toUInt32 r.samples = body ∧
        (r.time.isNaN = false → timeBits = r.time.toBits)) ∧
    ∀ key timeBits rate samples, key ∈ directory.keys → (Float.ofBits timeBits).isNaN = false →
      samples.length < UInt32.size →
      (samples = [] ∨ 1 ≤ rate.toNat ∧ rate.toNat ≤ 2147483647) →
      ∃ r, decodeDecompressed directory (encodeDecompressed key timeBits rate samples) = .ok r ∧
        r.key = key ∧ r.time.toBits = timeBits ∧ r.sampleRate.toUInt32 = rate ∧
        r.samples = samples ∧ r.x0 = none ∧ r.lastValue = none ∧ r.sequence = none ∧
        r.oldestSequence = none := by
  refine ⟨exists_decodeDecompressed_iff directory, ?outcome,
    fun _ _ hr => encodeDecompressed_of_decode hr, ?read⟩
  case outcome =>
    intro body result
    constructor
    · rintro rfl
      exact decompressedOutcome_decode directory body
    · exact decodeDecompressed_of_outcome directory
  case read =>
    intro key timeBits rate samples hkey hnumber hlength hrate
    obtain ⟨channel, hchannel, rfl⟩ := List.mem_map.1 hkey
    have hpos := hrate.imp_right fun hrange => toInt32_pos hrange.1 hrange.2
    exact ⟨_, decodeDecompressed_encode hchannel hlength hpos, rfl, toBits_ofBits hnumber,
      UInt32.toUInt32_toInt32 rate, rfl, rfl, rfl, rfl, rfl⟩

theorem decompressed_read_and_written_negative_sample :
    let directory : Directory := .ofList [⟨7, "STA.BHZ", none⟩]
    let body := encodeDecompressed 7 0x41D9000000800000 100 [1, -2]
    (∃ r, decodeDecompressed directory body = .ok r ∧ r.key = 7 ∧
      r.time.toBits = 0x41D9000000800000 ∧ r.samples = [1, -2]) ∧
    decodeDecompressed .empty body = .error (.unknownChannel 7) := by
  intro directory body
  obtain ⟨-, -, -, hread⟩ := decompressed_read_and_written directory
  obtain ⟨-, houtcome, -⟩ := decompressed_read_and_written .empty
  obtain ⟨r, hr, hkey, htime, -, hsamples, -⟩ := hread 7 0x41D9000000800000 100 [1, -2] (by decide)
    (by decide) (by decide) (.inr (by decide))
  have hheader : DecompressedHeader.ofBody body = ⟨7, 0x41D9000000800000, 2, 100⟩ := by decide
  have hlength : FullLength body := by decide
  have hunknown := (houtcome body _).2 (.unknownChannel hlength (fun _ => by decide) nofun)
  rw [hheader] at hunknown
  exact ⟨⟨r, hr, hkey, htime, hsamples⟩, hunknown⟩

end SeisFeed.Waveform
