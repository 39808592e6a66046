import Mathlib.Data.List.TakeWhile
import SeisFeed.Proofs.Waveform.CompressedForm
import SeisFeed.Proofs.Wire.Chunks
import SeisFeed.Proofs.Wire.Undoing
/-!
# Packets in a row

The value that a packet leaves over is the first sample of the channel's next packet. So wherever a
run of bundles is cut in two, the two packets that carry the pieces hold the samples that one packet
would have held, none lost and none twice. Of a first sample only 24 bits travel: the value left
over must fit them to come through.
-/

namespace SeisFeed.Waveform

open Wire (Bytes Read Field)

/-! ### Headers as they travel -/

namespace PacketHeader

/-- The header of a packet from the same channel, at another time and with another first sample. -/
def movedTo (h : PacketHeader) (seconds : UInt32) (ticks : UInt16) (sequence : UInt32)
    (x0 : Int32) : PacketHeader :=
  { h with seconds, ticks, sequence, x0 }

/-- A header as it is read back from its bytes. -/
def asSent (h : PacketHeader) : PacketHeader :=
  h.movedTo h.seconds h.ticks h.sequence (Wire.signExtend24 h.x0.toUInt32)

section Moved

variable (h : PacketHeader) (seconds : UInt32) (ticks : UInt16) (sequence : UInt32) (x0 : Int32)

@[simp] theorem isFiller_movedTo : (h.movedTo seconds ticks sequence x0).isFiller = h.isFiller := by
  simp only [isFiller, movedTo]

@[simp] theorem rateCode_movedTo : (h.movedTo seconds ticks sequence x0).rateCode = h.rateCode := by
  simp only [rateCode, movedTo]

@[simp] theorem key_movedTo : (h.movedTo seconds ticks sequence x0).key = h.key := by
  simp only [key, channelCode, movedTo]

end Moved

theorem encode_eq (h : PacketHeader) :
    h.encode = [h.packetType] ++ (Wire.word32 h.seconds ++ (Wire.word16 h.ticks ++
      (Wire.word16 h.instrumentId ++ (Wire.word32 h.sequence ++ ([h.rateByte] ++
        Wire.int24 h.x0))))) := by
  simp [encode, fields, Field.encodeAll, Field.encode]

@[simp] theorem length_encode (h : PacketHeader) : h.encode.length = 17 := by
  simp [encode_eq, Wire.word16, Wire.int24]

theorem undoes_read (h : PacketHeader) : PacketHeader.read.Undoes h.encode h.asSent := by
  rw [encode_eq]
  exact (Read.undoes_byte _).bind ((Read.undoes_word32 _).bind ((Read.undoes_word16 _).bind
    ((Read.undoes_word16 _).bind ((Read.undoes_word32 _).bind ((Read.undoes_byte _).bind
      ((Read.undoes_int24 _).map _))))))

end PacketHeader

/-- A number that three bytes carry with its sign. -/
def FitsIn24 (i : Int32) : Prop :=
  -8388608 ≤ i.toInt ∧ i.toInt < 8388608

theorem signExtend24_of_fits {i : Int32} (h : FitsIn24 i) :
    Wire.signExtend24 i.toUInt32 = i := by
  obtain ⟨hlow, hhigh⟩ := h
  have hint : i.toInt = Int.bmod i.toUInt32.toNat 4294967296 :=
    BitVec.toInt_eq_toNat_bmod i.toBitVec
  have hsame : (i.toUInt32.toNat : Int) % (16777216 : Nat) = i.toInt % (16777216 : Nat) := by
    have hmod := Int.bmod_emod (x := i.toUInt32.toNat) (m := 4294967296)
    omega
  have hbmod : Int.bmod i.toUInt32.toNat 16777216 = i.toInt := by
    rw [← Int.emod_bmod, hsame, Int.emod_bmod]
    exact Int.bmod_eq_of_le (by omega) (by omega)
  exact (congrArg Int32.ofInt hbmod).trans i.ofInt_toInt

theorem undoes_readCompressedHeader (oldest : Int32) (h : PacketHeader) :
    readCompressedHeader.Undoes (Wire.int32 oldest ++ h.encode) (oldest, h.asSent) :=
  (Read.undoes_int32 oldest).bind (h.undoes_read.map _)

theorem encodeCompressed_eq (oldest : Int32) (h : PacketHeader) (bundles : Bytes) :
    encodeCompressed oldest h bundles = (Wire.int32 oldest ++ h.encode) ++ bundles := by
  simp [encodeCompressed, PacketHeader.encode, Field.encodeAll, Field.encode]

/-! ### Bundles in a row -/

/-- Where no bundle in front is a filler, its differences come before those behind. -/
theorem differences_append {front : Bytes} (hwhole : front.length % bundleLength = 0)
    (hdata : ∀ bundle ∈ Wire.wholeChunks bundleLength front, isFiller bundle = false)
    (back : Bytes) : differences (front ++ back) = differences front ++ differences back := by
  have hfront : ∀ bundle ∈ Wire.wholeChunks bundleLength front, (!isFiller bundle) = true := by
    intro bundle hbundle
    rw [hdata bundle hbundle, Bool.not_false]
  simp only [← flatMap_bundleDiffs]
  rw [Wire.wholeChunks_append hwhole, List.takeWhile_append_of_pos hfront,
    List.flatMap_append, List.takeWhile_eq_self_iff.2 hfront]

/-! ### Chains -/

theorem sampleChain_eq_scanl (x0 : Int32) (bundles : Bytes) :
    sampleChain x0 bundles = (differences bundles).scanl (· + ·) x0 := by
  rw [sampleChain, Unpacked.addAll, Unpacked.addBundles, flatMap_bundleDiffs, Unpacked.add,
    ← cons_runningSums]
  rfl

/-- Sums over a list in two parts: those over the second go on from the last over the first, which
stands once. -/
theorem scanl_dropLast_append {α β : Type} (f : α → β → α) (x : α) (front back : List β) :
    (front ++ back).scanl f x =
      (front.scanl f x).dropLast ++ back.scanl f (front.foldl f x) := by
  have hfront := List.dropLast_append_getLast (List.scanl_ne_nil (f := f) (b := x) (l := front))
  have hback := List.cons_head_tail
    (List.scanl_ne_nil (f := f) (b := front.foldl f x) (l := back))
  rw [List.getLast_scanl] at hfront
  rw [List.head_scanl] at hback
  rw [List.scanl_append, ← hback, ← hfront]
  simp

/-- The wrapping sum of a value and all differences. -/
def runOn (x : Int32) (bundles : Bytes) : Int32 :=
  (differences bundles).foldl (· + ·) x

theorem sampleChain_append {front : Bytes} (hwhole : front.length % bundleLength = 0)
    (hdata : ∀ bundle ∈ Wire.wholeChunks bundleLength front, isFiller bundle = false) (x0 : Int32)
    (back : Bytes) :
    sampleChain x0 (front ++ back) =
      (sampleChain x0 front).dropLast ++ sampleChain (runOn x0 front) back := by
  rw [sampleChain_eq_scanl, differences_append hwhole hdata, scanl_dropLast_append,
    ← sampleChain_eq_scanl, ← sampleChain_eq_scanl]
  rfl

theorem getLast?_sampleChain (x0 : Int32) (bundles : Bytes) :
    (sampleChain x0 bundles).getLast? = some (runOn x0 bundles) := by
  rw [sampleChain_eq_scanl, List.getLast?_scanl, runOn]

theorem sampleChain_ne_nil (x0 : Int32) (bundles : Bytes) : sampleChain x0 bundles ≠ [] := by
  rw [sampleChain_eq_scanl]
  exact List.scanl_ne_nil

/-! ### Packets -/

theorem decodeCompressed_encode {directory : Directory} {channel : Channel} {h : PacketHeader}
    {bundles : Bytes} (hdata : h.isFiller = false) (hrate : rateOfCode h.rateCode ≠ 0)
    (hchannel : directory.get? h.key = some channel)
    (hwhole : bundles.length % bundleLength = 0) (oldest : Int32) :
    decodeCompressed directory (encodeCompressed oldest h bundles) =
      .ok (compressedRecord oldest h.asSent (sampleChain h.asSent.x0 bundles)
        (encodeCompressed oldest h bundles).length channel) := by
  have hread := (undoes_readCompressedHeader oldest h).whole 0 bundles
  rw [← encodeCompressed_eq] at hread
  have hdata' : h.asSent.isFiller = false := (h.isFiller_movedTo ..).trans hdata
  have hrate' : rateOfCode h.asSent.rateCode ≠ 0 := by rwa [PacketHeader.asSent, h.rateCode_movedTo]
  have hchannel' : directory.get? h.asSent.key = some channel := by
    rwa [PacketHeader.asSent, h.key_movedTo]
  simp [decodeCompressed, Wire.Cursor.start, hread, hdata', hrate', Wire.Cursor.remaining, hwhole,
    resolve, hchannel', Except.map]

/-- Where a run of bundles is cut in two, a packet with the first piece and one that goes on from
the value it leaves over hold together the samples of one packet with the whole run. -/
theorem packets_chain_without_seam {directory : Directory} {h : PacketHeader} {front back : Bytes}
    (hdata : h.isFiller = false) (hrate : rateOfCode h.rateCode ≠ 0)
    (hkey : h.key ∈ directory.keys) (hfront : front.length % bundleLength = 0)
    (hback : back.length % bundleLength = 0)
    (hbundles : ∀ bundle ∈ Wire.wholeChunks bundleLength front, isFiller bundle = false)
    (oldest oldest' oldest'' : Int32) :
    ∃ a ab last, decodeCompressed directory (encodeCompressed oldest h front) = .ok a ∧
      decodeCompressed directory (encodeCompressed oldest'' h (front ++ back)) = .ok ab ∧
      a.lastValue = some last ∧
      (FitsIn24 last → ∀ seconds ticks sequence, ∃ b,
        decodeCompressed directory
          (encodeCompressed oldest' (h.movedTo seconds ticks sequence last) back) = .ok b ∧
        ab.samples = a.samples ++ b.samples ∧ ab.lastValue = b.lastValue ∧
        b.x0 = a.lastValue) := by
  obtain ⟨channel, hchannel, hk⟩ := List.mem_map.1 hkey
  have hget := (directory.get?_eq_some_iff _ _).2 ⟨hchannel, hk⟩
  have hwhole : (front ++ back).length % bundleLength = 0 := by
    rw [List.length_append, Nat.add_mod, hfront, hback]
    rfl
  refine ⟨_, _, _, decodeCompressed_encode hdata hrate hget hfront oldest,
    decodeCompressed_encode hdata hrate hget hwhole oldest'',
    getLast?_sampleChain h.asSent.x0 front, ?_⟩
  intro hfits seconds ticks sequence
  let next := h.movedTo seconds ticks sequence (runOn h.asSent.x0 front)
  have hsent : next.asSent.x0 = runOn h.asSent.x0 front := signExtend24_of_fits hfits
  have hnext := decodeCompressed_encode (h := next) (by rwa [h.isFiller_movedTo])
    (by rwa [h.rateCode_movedTo]) (by rwa [h.key_movedTo]) hback oldest'
  have hchain := sampleChain_append hfront hbundles h.asSent.x0 back
  rw [← hsent] at hchain
  have hne := sampleChain_ne_nil next.asSent.x0 back
  refine ⟨_, hnext, ?_, ?_, ?_⟩
  · show (sampleChain h.asSent.x0 (front ++ back)).dropLast = _
    rw [hchain, List.dropLast_append_of_ne_nil hne]
    rfl
  · show (sampleChain h.asSent.x0 (front ++ back)).getLast? = _
    rw [hchain, List.getLast?_append_of_ne_nil _ hne]
    rfl
  · show some next.asSent.x0 = (sampleChain h.asSent.x0 front).getLast?
    rw [getLast?_sampleChain, hsent]

theorem packets_chain_without_seam_below_zero :
    let directory : Directory := .ofList [⟨0x0C010100, "STA.BHZ", none⟩]
    let header : PacketHeader := ⟨1, 1700000000, 5000, 0x0C01, 42, 0x48, -5⟩
    let bundle : Bytes := [0x40, 1, 255, 2, 252] ++ List.replicate 12 0
    let filler : Bytes := 9 :: List.replicate 16 0
    ∃ a b ab, decodeCompressed directory (encodeCompressed 0 header bundle) = .ok a ∧
      decodeCompressed directory
        (encodeCompressed 0 (header.movedTo 1700000000 5400 43 (-7)) (bundle ++ filler)) = .ok b ∧
      decodeCompressed directory (encodeCompressed 0 header (bundle ++ (bundle ++ filler))) =
        .ok ab ∧
      a.lastValue = some (-7) ∧ b.x0 = some (-7) ∧ ab.samples = a.samples ++ b.samples := by
  intro directory header bundle filler
  obtain ⟨a, ab, last, ha, hab, hlast, hnext⟩ :=
    @packets_chain_without_seam directory header bundle (bundle ++ filler) (by decide) (by decide)
      (by decide) (by decide) (by decide) (by decide) 0 0 0
  have hvalue : (decodeCompressed directory (encodeCompressed 0 header bundle)).toOption.map
      Record.lastValue = some (some (-7)) := by decide
  rw [ha] at hvalue
  obtain rfl : last = -7 := by simpa [Except.toOption, hlast] using hvalue
  obtain ⟨b, hb, hsamples, -, hx0⟩ := hnext ⟨by decide, by decide⟩ 1700000000 5400 43
  exact ⟨a, b, ab, ha, hb, hab, hlast, hx0.trans hlast, hsamples⟩

end SeisFeed.Waveform
