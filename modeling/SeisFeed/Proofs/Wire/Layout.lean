import SeisFeed.Proofs.Wire.Reading
/-!
# Bytes at their places

A field can be read where it lies: the byte at a place, and the words that bytes in a row spell,
the first byte highest. Read so, a word is a row of bits, and the arithmetic by which fields are
decoded is the same as laying their bits side by side.
-/

namespace SeisFeed.Wire

def byteAt (bytes : Bytes) (i : Nat) : UInt8 :=
  bytes.getD i 0

def bits16At (bytes : Bytes) (i : Nat) : BitVec 16 :=
  (byteAt bytes i).toBitVec ++ (byteAt bytes (i + 1)).toBitVec

def bits24At (bytes : Bytes) (i : Nat) : BitVec 24 :=
  bits16At bytes i ++ (byteAt bytes (i + 2)).toBitVec

def bits32At (bytes : Bytes) (i : Nat) : BitVec 32 :=
  bits24At bytes i ++ (byteAt bytes (i + 3)).toBitVec

def bits64At (bytes : Bytes) (i : Nat) : BitVec 64 :=
  bits32At bytes i ++ bits32At bytes (i + 4)

theorem take_drop_eq_map (bytes : Bytes) (i width : Nat) (h : i + width ≤ bytes.length) :
    (bytes.drop i).take width = (List.range width).map fun j => byteAt bytes (i + j) := by
  apply List.ext_getElem
  · simp only [List.length_take, List.length_drop, List.length_map, List.length_range]
    omega
  · intro j hj _
    have hj' : i + j < bytes.length := by
      simp only [List.length_take, List.length_drop] at hj
      omega
    simp [byteAt, List.getD_eq_getElem?_getD, hj']

/-! ### Words as rows of bits -/

theorem toNat_append_byte {width : Nat} (x : BitVec width) (b : UInt8) :
    (x ++ b.toBitVec).toNat = x.toNat * 256 + b.toNat := by
  rw [BitVec.toNat_append, ← Nat.shiftLeft_add_eq_or_of_lt b.toBitVec.isLt, Nat.shiftLeft_eq]
  rfl

theorem toNat_bits16At (bytes : Bytes) (i : Nat) :
    (bits16At bytes i).toNat = ofBigEndian [byteAt bytes i, byteAt bytes (i + 1)] := by
  rw [bits16At, toNat_append_byte]
  simp [ofBigEndian]

theorem toNat_bits24At (bytes : Bytes) (i : Nat) :
    (bits24At bytes i).toNat =
      ofBigEndian [byteAt bytes i, byteAt bytes (i + 1), byteAt bytes (i + 2)] := by
  rw [bits24At, toNat_append_byte, toNat_bits16At]
  simp [ofBigEndian]

theorem toNat_bits32At (bytes : Bytes) (i : Nat) :
    (bits32At bytes i).toNat = ofBigEndian
      [byteAt bytes i, byteAt bytes (i + 1), byteAt bytes (i + 2), byteAt bytes (i + 3)] := by
  rw [bits32At, toNat_append_byte, toNat_bits24At]
  simp [ofBigEndian]

theorem toNat_bits64At (bytes : Bytes) (i : Nat) :
    (bits64At bytes i).toNat = ofBigEndian [byteAt bytes i, byteAt bytes (i + 1),
      byteAt bytes (i + 2), byteAt bytes (i + 3), byteAt bytes (i + 4), byteAt bytes (i + 5),
      byteAt bytes (i + 6), byteAt bytes (i + 7)] := by
  have hlow := (bits32At bytes (i + 4)).isLt
  rw [bits64At, BitVec.toNat_append, ← Nat.shiftLeft_add_eq_or_of_lt hlow, Nat.shiftLeft_eq,
    toNat_bits32At, toNat_bits32At]
  simp only [ofBigEndian, List.foldl_cons, List.foldl_nil, Nat.add_assoc, Nat.reduceAdd]
  omega

/-! ### Fields where they lie -/

theorem toByte_slice (bytes : Bytes) (i : Nat) (h : i + 1 ≤ bytes.length) :
    UInt8.ofNat (ofBigEndian ((bytes.drop i).take 1)) = byteAt bytes i := by
  rw [take_drop_eq_map bytes i 1 h]
  simp [List.range_succ, ofBigEndian]

theorem toWord16_slice (bytes : Bytes) (i : Nat) (h : i + 2 ≤ bytes.length) :
    toWord16 ((bytes.drop i).take 2) = ⟨bits16At bytes i⟩ := by
  have hbits : UInt16.ofNat (bits16At bytes i).toNat = ⟨bits16At bytes i⟩ := by
    apply UInt16.toBitVec_inj.1
    simp
  rw [← hbits, toNat_bits16At, take_drop_eq_map bytes i 2 h]
  rfl

theorem toWord32_slice (bytes : Bytes) (i : Nat) (h : i + 4 ≤ bytes.length) :
    toWord32 ((bytes.drop i).take 4) = ⟨bits32At bytes i⟩ := by
  have hbits : UInt32.ofNat (bits32At bytes i).toNat = ⟨bits32At bytes i⟩ := by
    apply UInt32.toBitVec_inj.1
    simp
  rw [← hbits, toNat_bits32At, take_drop_eq_map bytes i 4 h]
  rfl

theorem toWord64_slice (bytes : Bytes) (i : Nat) (h : i + 8 ≤ bytes.length) :
    toWord64 ((bytes.drop i).take 8) = ⟨bits64At bytes i⟩ := by
  have hbits : UInt64.ofNat (bits64At bytes i).toNat = ⟨bits64At bytes i⟩ := by
    apply UInt64.toBitVec_inj.1
    simp
  rw [← hbits, toNat_bits64At, take_drop_eq_map bytes i 8 h]
  rfl

theorem length_slice {bytes : Bytes} {i width : Nat} (h : i + width ≤ bytes.length) :
    ((bytes.drop i).take width).length = width := by
  rw [List.length_take, List.length_drop]
  omega

theorem slice_append_drop (bytes : Bytes) (i width : Nat) :
    (bytes.drop i).take width ++ bytes.drop (i + width) = bytes.drop i := by
  rw [← List.drop_drop, List.take_append_drop]

/-- A word that is written again takes the bytes that it was read from. -/
theorem word32_bits32At (bytes : Bytes) (i : Nat) (h : i + 4 ≤ bytes.length) :
    word32 ⟨bits32At bytes i⟩ = (bytes.drop i).take 4 := by
  rw [← toWord32_slice bytes i h, word32_toWord32 (length_slice h)]

theorem word16_bits16At (bytes : Bytes) (i : Nat) (h : i + 2 ≤ bytes.length) :
    word16 ⟨bits16At bytes i⟩ = (bytes.drop i).take 2 := by
  rw [← toWord16_slice bytes i h, word16_toWord16 (length_slice h)]

theorem word64_bits64At (bytes : Bytes) (i : Nat) (h : i + 8 ≤ bytes.length) :
    word64 ⟨bits64At bytes i⟩ = (bytes.drop i).take 8 := by
  rw [← toWord64_slice bytes i h, word64_toWord64 (length_slice h)]

/-- Reading a row of bits as a signed number extends its sign. -/
theorem ofInt_bmod_eq_signExtend {width : Nat} (x : BitVec width) (n : Nat) (hn : x.toNat = n) :
    Int32.ofInt (Int.bmod n (Nat.pow 2 width)) = ⟨⟨x.signExtend 32⟩⟩ := by
  rw [← hn]
  exact congrArg Int32.ofInt (BitVec.toInt_eq_toNat_bmod x).symm

theorem signExtend24_eq (w : UInt32) :
    signExtend24 w = ⟨⟨(w.toBitVec.setWidth 24).signExtend 32⟩⟩ := by
  have hmod : (w.toBitVec.setWidth 24).toNat = w.toNat % 16777216 := BitVec.toNat_setWidth ..
  rw [← ofInt_bmod_eq_signExtend _ _ rfl, hmod, Int.natCast_emod]
  exact congrArg Int32.ofInt (Int.emod_bmod ..).symm

theorem toNat_signExtend_mod (x : BitVec 24) : (x.signExtend 32).toNat % 16777216 = x.toNat := by
  have hwidth : (x.signExtend 32).setWidth 24 = x := by
    ext i hi
    simp only [BitVec.getElem_setWidth, BitVec.getLsbD_signExtend]
    simp [hi]
    omega
  have hlow := congrArg BitVec.toNat hwidth
  rwa [BitVec.toNat_setWidth] at hlow

theorem int24_bits24At (bytes : Bytes) (i : Nat) (h : i + 3 ≤ bytes.length) :
    int24 ⟨⟨(bits24At bytes i).signExtend 32⟩⟩ = (bytes.drop i).take 3 := by
  have hlow : ((bits24At bytes i).signExtend 32).toNat % Nat.pow 256 3 =
      ofBigEndian ((bytes.drop i).take 3) := by
    rw [take_drop_eq_map bytes i 3 h]
    exact (toNat_signExtend_mod (bits24At bytes i)).trans (toNat_bits24At bytes i)
  show bigEndian 3 ((bits24At bytes i).signExtend 32).toNat = _
  rw [← bigEndian_mod, hlow, bigEndian_ofBigEndian (length_slice h)]

/-- The low 24 bits of a word that three bytes spell, as a signed number. -/
theorem signExtend24_slice (bytes : Bytes) (i : Nat) (h : i + 3 ≤ bytes.length) :
    signExtend24 (toWord32 ((bytes.drop i).take 3)) = ⟨⟨(bits24At bytes i).signExtend 32⟩⟩ := by
  have hsmall : (toWord32 ((bytes.drop i).take 3)).toNat = (bits24At bytes i).toNat := by
    rw [take_drop_eq_map bytes i 3 h, toWord32]
    show (UInt32.ofNat
      (ofBigEndian [byteAt bytes i, byteAt bytes (i + 1), byteAt bytes (i + 2)])).toNat = _
    rw [← toNat_bits24At]
    have hlt := (bits24At bytes i).isLt
    exact UInt32.toNat_ofNat_of_lt' (by show _ < 4294967296; omega)
  exact ofInt_bmod_eq_signExtend (bits24At bytes i) _ hsmall.symm

end SeisFeed.Wire
