import SeisFeed.Proofs.Waveform.Seams
/-!
# Compressed bodies written and read

A header is written field by field at fixed places and read back in sequence. Read back, it is the
header as it was but for its first sample, of which 24 bits travel; and any seventeen bytes are
those that the header read from them is written as. So a body that is decoded is written again byte
for byte from its oldest sequence number, its header and its bundles, and what is decoded of a body
that was written tells them as they travel.
-/

namespace SeisFeed.Waveform

open Wire (Bytes byteAt)

/-- The low 24 bits of a number, with their sign. -/
def signed24 (i : Int32) : Int32 :=
  ⟨⟨(i.toBitVec.setWidth 24).signExtend 32⟩⟩

namespace PacketHeader

/-- A header is read back with what the low 24 bits of its first sample say. -/
theorem asSent_eq (h : PacketHeader) : h.asSent = { h with x0 := signed24 h.x0 } := by
  rw [asSent, movedTo, Wire.signExtend24_eq]
  rfl

theorem asSent_of_fits {h : PacketHeader} (hx0 : FitsIn24 h.x0) : h.asSent = h := by
  rw [asSent, movedTo, signExtend24_of_fits hx0]

theorem encode_ofBytes {bytes : Bytes} (h : bytes.length = 17) :
    (ofBytes bytes).encode = bytes := by
  have hbyte : ∀ i, i < 17 → [byteAt bytes i] = (bytes.drop i).take 1 := by
    intro i hi
    rw [Wire.take_drop_eq_map bytes i 1 (by omega)]
    rfl
  have hlast : (bytes.drop 14).take 3 = bytes.drop 14 :=
    List.take_of_length_le (by rw [List.length_drop]; omega)
  rw [encode_eq]
  simp only [ofBytes, hbyte 0 (by omega), hbyte 13 (by omega),
    Wire.word32_bits32At bytes 1 (by omega), Wire.word16_bits16At bytes 5 (by omega),
    Wire.word16_bits16At bytes 7 (by omega), Wire.word32_bits32At bytes 9 (by omega),
    Wire.int24_bits24At bytes 14 (by omega), hlast]
  simp only [Wire.slice_append_drop bytes 13 1, Wire.slice_append_drop bytes 9 4,
    Wire.slice_append_drop bytes 7 2, Wire.slice_append_drop bytes 5 2,
    Wire.slice_append_drop bytes 1 4, List.drop_zero, List.take_append_drop]

end PacketHeader

/-! ### Bodies -/

theorem encodeCompressed_ofBytes {body : Bytes} (h : 21 ≤ body.length) :
    encodeCompressed (Wire.toInt32 (body.take 4)) (.ofBytes ((body.drop 4).take 17))
      (body.drop 21) = body := by
  have holdest : (body.take 4).length = 4 := List.length_take_of_le (by omega)
  have hheader := PacketHeader.encode_ofBytes (Wire.length_slice (by omega : 4 + 17 ≤ body.length))
  have hbundles : body.drop 21 = (body.drop 4).drop 17 := by rw [List.drop_drop]
  rw [encodeCompressed_eq, Wire.int32_toInt32 holdest, hheader, hbundles, List.append_assoc,
    List.take_append_drop, List.take_append_drop]

theorem long_of_decodeCompressed {directory : Directory} {body : Bytes} {r : Record}
    (h : decodeCompressed directory body = .ok r) : 21 ≤ body.length := by
  have houtcome := (decodeCompressed_eq_iff directory body _).1 h
  cases houtcome with
  | record hlong => exact hlong

/-- What is decoded of a body that was written is made of what it was written from, as that
travels. -/
theorem record_of_decode_encode {directory : Directory} {oldest : Int32} {h : PacketHeader}
    {bundles : Bytes} {r : Record}
    (hr : decodeCompressed directory (encodeCompressed oldest h bundles) = .ok r) :
    ∃ channel, r = compressedRecord oldest h.asSent (sampleChain h.asSent.x0 bundles)
      (encodeCompressed oldest h bundles).length channel := by
  have hread := (undoes_readCompressedHeader oldest h).whole 0 bundles
  rw [← encodeCompressed_eq] at hread
  simp only [decodeCompressed, Wire.Cursor.start, hread] at hr
  split at hr
  · cases hr
  split at hr
  · cases hr
  split at hr
  · cases hr
  cases hchannel : resolve directory h.asSent.key with
  | error fault =>
    rw [hchannel] at hr
    cases hr
  | ok channel =>
    rw [hchannel] at hr
    exact ⟨channel, (Except.ok.inj hr).symm⟩

/-- **Compressed bodies are written and read back.** Reading a header undoes writing it: it takes
seventeen bytes and leaves all but the first sample as it was, and that too if it fits 24 bits.
Writing a header undoes reading it from seventeen bytes. A body that is decoded is what is written
of its first four bytes, its header and the rest; and a record that is decoded of a body that was
written tells the sequence numbers, the key, the type and the first sample that it was written from,
of the last the low 24 bits with their sign. -/
theorem compressed_read_and_written :
    (∀ (h : PacketHeader) position rest,
      PacketHeader.read ⟨position, h.encode ++ rest⟩ =
        (some { h with x0 := signed24 h.x0 }, ⟨position + 17, rest⟩)) ∧
    (∀ h : PacketHeader, -8388608 ≤ h.x0.toInt → h.x0.toInt < 8388608 →
      { h with x0 := signed24 h.x0 } = h) ∧
    (∀ bytes : Bytes, bytes.length = 17 → ∃ h : PacketHeader,
      (∀ position rest, PacketHeader.read ⟨position, bytes ++ rest⟩ =
        (some h, ⟨position + 17, rest⟩)) ∧ h.encode = bytes) ∧
    (∀ directory body r, decodeCompressed directory body = .ok r →
      ∃ h, PacketHeader.read ⟨4, body.drop 4⟩ = (some h, ⟨21, body.drop 21⟩) ∧
        encodeCompressed (Wire.toInt32 (body.take 4)) h (body.drop 21) = body) ∧
    ∀ directory oldest (h : PacketHeader) bundles r,
      decodeCompressed directory (encodeCompressed oldest h bundles) = .ok r →
        r.oldestSequence = some oldest ∧ r.key = h.key ∧
        r.packetType = Int32.ofNat h.packetType.toNat ∧ r.sequence = some h.sequence.toInt32 ∧
        r.x0 = some (signed24 h.x0) := by
  refine ⟨?headers, ?fitting, ?bytes, ?bodies, ?records⟩
  case headers =>
    intro h position rest
    have hread := h.undoes_read.whole position rest
    rwa [h.length_encode, h.asSent_eq] at hread
  case fitting =>
    intro h hlow hhigh
    rw [← h.asSent_eq, PacketHeader.asSent_of_fits ⟨hlow, hhigh⟩]
  case bytes =>
    intro bytes hbytes
    exact ⟨.ofBytes bytes, PacketHeader.reads_read.append hbytes,
      PacketHeader.encode_ofBytes hbytes⟩
  case bodies =>
    intro directory body r hr
    have hlong := long_of_decodeCompressed hr
    have hread := PacketHeader.reads_read.enough ⟨4, body.drop 4⟩
      (by show 17 ≤ (body.drop 4).length; rw [List.length_drop]; omega)
    rw [List.drop_drop] at hread
    exact ⟨_, hread, encodeCompressed_ofBytes hlong⟩
  case records =>
    intro directory oldest h bundles r hr
    obtain ⟨channel, hrecord⟩ := record_of_decode_encode hr
    rw [h.asSent_eq] at hrecord
    rw [hrecord]
    exact ⟨rfl, rfl, rfl, rfl, rfl⟩

/-- The least first sample that fits, bytes that are all set, and a first sample that does not fit
with a sequence number that is not positive as a signed one. -/
theorem compressed_read_and_written_cut_sample :
    let least : PacketHeader := ⟨1, 1700000000, 5000, 0x0C01, 42, 0x48, -8388608⟩
    let header : PacketHeader := { least with sequence := 0xFFFFFFFE, x0 := 0x01800005 }
    let directory : Directory := .ofList [⟨0x0C010100, "STA.BHZ", none⟩]
    let body := encodeCompressed (-3) header ([0x40, 1, 255, 2, 252] ++ List.replicate 12 0)
    { least with x0 := signed24 least.x0 } = least ∧
    (∃ h : PacketHeader, h.encode = List.replicate 17 255) ∧
    (∃ h, encodeCompressed (Wire.toInt32 (body.take 4)) h (body.drop 21) = body) ∧
    ∃ r, decodeCompressed directory body = .ok r ∧ r.oldestSequence = some (-3) ∧
      r.key = 0x0C010100 ∧ r.sequence = some (-2) ∧ r.x0 = some (-8388603) := by
  intro least header directory body
  obtain ⟨-, hfitting, hbytes, hbodies, hrecords⟩ := compressed_read_and_written
  obtain ⟨h, -, hwritten⟩ := hbytes (List.replicate 17 255) rfl
  have hdecodes : (decodeCompressed directory body).toOption.isSome = true := by decide
  cases hr : decodeCompressed directory body with
  | error fault =>
    rw [hr] at hdecodes
    cases hdecodes
  | ok r =>
    obtain ⟨header', -, hagain⟩ := hbodies directory body r hr
    obtain ⟨holdest, hkey, -, hsequence, hx0⟩ := hrecords directory _ header _ r hr
    rw [show header.key = 0x0C010100 by decide] at hkey
    rw [show signed24 header.x0 = -8388603 by decide] at hx0
    exact ⟨hfitting least (by decide) (by decide), ⟨h, hwritten⟩, ⟨header', hagain⟩, r, rfl,
      holdest, hkey, hsequence, hx0⟩

end SeisFeed.Waveform
