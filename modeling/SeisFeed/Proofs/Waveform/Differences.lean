import SeisFeed.Proofs.Wire.Layout
import SeisFeed.Waveform.Bundle
/-!
# The differences in bundles

What a run of bundles holds, said by the places and bits of its bytes: bundle `i` starts at byte `17
* i` with its control byte, group `g` of it follows at byte `1 + 4 * g`, and bits `6 - 2 * g` and up
of the control byte select how the group is read. `differences` lists what all whole bundles in
front of the first filler hold, and `flatMap_bundleDiffs` that this is what is unpacked. The samples
are the wrapping sums of the first and of the differences so far, `List.scanl`.
-/

namespace SeisFeed.Waveform

open Wire (Bytes byteAt bits16At bits24At bits32At)

/-- The differences in the four bytes from a place on, as a selector has them read: none, four of
one byte, two of two, or one of four, with their signs extended. -/
def groupAt (data : Bytes) (i : Nat) (selector : BitVec 2) : List Int32 :=
  if selector = 1 then
    [⟨⟨(byteAt data i).toBitVec.signExtend 32⟩⟩, ⟨⟨(byteAt data (i + 1)).toBitVec.signExtend 32⟩⟩,
      ⟨⟨(byteAt data (i + 2)).toBitVec.signExtend 32⟩⟩,
      ⟨⟨(byteAt data (i + 3)).toBitVec.signExtend 32⟩⟩]
  else if selector = 2 then
    [⟨⟨(bits16At data i).signExtend 32⟩⟩, ⟨⟨(bits16At data (i + 2)).signExtend 32⟩⟩]
  else if selector = 3 then [⟨⟨bits32At data i⟩⟩]
  else []

def bundleAt (data : Bytes) (i : Nat) : List Int32 :=
  let control := (byteAt data i).toBitVec
  groupAt data (i + 1) (control.extractLsb' 6 2) ++
    groupAt data (i + 5) (control.extractLsb' 4 2) ++
    groupAt data (i + 9) (control.extractLsb' 2 2) ++
    groupAt data (i + 13) (control.extractLsb' 0 2)

/-- The differences in the whole bundles in front of the first whose control byte is 9. -/
def differences (data : Bytes) : List Int32 :=
  ((List.range (data.length / 17)).takeWhile fun i => byteAt data (17 * i) ≠ 9).flatMap fun i =>
    bundleAt data (17 * i)

/-! ### Groups -/

theorem twosComplement_eq {width : Nat} (bytes : Bytes) (x : BitVec width)
    (hx : x.toNat = Wire.ofBigEndian bytes) (hwidth : width = 8 * bytes.length) :
    twosComplement bytes = ⟨⟨x.signExtend 32⟩⟩ := by
  have hpow : Nat.pow 256 bytes.length = Nat.pow 2 width := by
    rw [hwidth]
    exact (Nat.pow_mul 2 8 bytes.length).symm
  rw [twosComplement, hpow]
  exact Wire.ofInt_bmod_eq_signExtend x _ hx

theorem twosComplement_one (b : UInt8) : twosComplement [b] = ⟨⟨b.toBitVec.signExtend 32⟩⟩ :=
  twosComplement_eq [b] b.toBitVec (by simp [Wire.ofBigEndian]) rfl

theorem twosComplement_two (data : Bytes) (i : Nat) :
    twosComplement [byteAt data i, byteAt data (i + 1)] = ⟨⟨(bits16At data i).signExtend 32⟩⟩ :=
  twosComplement_eq _ (bits16At data i) (Wire.toNat_bits16At data i) rfl

theorem twosComplement_four (data : Bytes) (i : Nat) :
    twosComplement [byteAt data i, byteAt data (i + 1), byteAt data (i + 2), byteAt data (i + 3)] =
      ⟨⟨bits32At data i⟩⟩ := by
  rw [twosComplement_eq _ (bits32At data i) (Wire.toNat_bits32At data i) rfl, BitVec.signExtend_eq]

theorem four_bytes (data : Bytes) (i : Nat) (h : i + 4 ≤ data.length) :
    (data.drop i).take 4 =
      [byteAt data i, byteAt data (i + 1), byteAt data (i + 2), byteAt data (i + 3)] :=
  Wire.take_drop_eq_map data i 4 h

theorem groupDiffs_eq (data : Bytes) (i : Nat) (h : i + 4 ≤ data.length) (selector : BitVec 2) :
    groupDiffs selector.toNat ((data.drop i).take 4) = groupAt data i selector := by
  rw [four_bytes data i h, groupAt]
  have hcases : ∀ s : BitVec 2, s = 0 ∨ s = 1 ∨ s = 2 ∨ s = 3 := by decide
  rcases hcases selector with rfl | rfl | rfl | rfl
  · rfl
  · rw [if_pos rfl, ← twosComplement_one, ← twosComplement_one, ← twosComplement_one,
      ← twosComplement_one]
    simp [groupDiffs, diffWidth?, Wire.wholeChunks, Wire.chunks]
  · rw [if_neg (by decide), if_pos rfl, ← twosComplement_two, ← twosComplement_two]
    simp [groupDiffs, diffWidth?, Wire.wholeChunks, Wire.chunks]
  · rw [if_neg (by decide), if_neg (by decide), if_pos rfl, ← twosComplement_four]
    simp [groupDiffs, diffWidth?, Wire.wholeChunks, Wire.chunks]

/-! ### Bundles -/

theorem selectors_eq (control : UInt8) :
    selectors control = [(control.toBitVec.extractLsb' 6 2).toNat,
      (control.toBitVec.extractLsb' 4 2).toNat, (control.toBitVec.extractLsb' 2 2).toNat,
      (control.toBitVec.extractLsb' 0 2).toNat] := by
  simp [selectors, Nat.shiftRight_eq_div_pow]

/-- A bundle that lies in the data holds the differences in its four groups. -/
theorem bundleDiffs_eq (data : Bytes) (i : Nat) (h : i + 17 ≤ data.length) :
    bundleDiffs ((data.drop i).take 17) = bundleAt data i := by
  have hsplit : (data.drop i).take 17 = byteAt data i :: (data.drop (i + 1)).take 16 := by
    rw [List.drop_eq_getElem_cons (by omega : i < data.length), List.take_succ_cons]
    simp [byteAt, List.getD_eq_getElem?_getD, (by omega : i < data.length)]
  have hgroup : ∀ place, place + 4 ≤ 16 →
      (((data.drop (i + 1)).take 16).drop place).take 4 = (data.drop (i + 1 + place)).take 4 := by
    intro place hplace
    rw [List.drop_take, List.take_take, List.drop_drop, Nat.min_eq_left (by omega)]
  have hchunks : Wire.chunks 4 4 ((data.drop (i + 1)).take 16) =
      [(data.drop (i + 1)).take 4, (data.drop (i + 5)).take 4, (data.drop (i + 9)).take 4,
        (data.drop (i + 13)).take 4] := by
    have h0 := hgroup 0 (by omega)
    have h4 := hgroup 4 (by omega)
    have h8 := hgroup 8 (by omega)
    have h12 := hgroup 12 (by omega)
    simp only [Wire.chunks, List.drop_drop, Nat.add_assoc, Nat.reduceAdd, List.drop_zero] at *
    rw [h0, h4, h8, h12]
  rw [hsplit, bundleDiffs, hchunks, selectors_eq, bundleAt,
    ← groupDiffs_eq data (i + 1) (by omega), ← groupDiffs_eq data (i + 5) (by omega),
    ← groupDiffs_eq data (i + 9) (by omega), ← groupDiffs_eq data (i + 13) (by omega)]
  simp only [List.zip_cons_cons, List.zip_nil_left, List.flatMap_cons, List.flatMap_nil,
    List.append_nil, List.append_assoc]

theorem isFiller_eq (data : Bytes) (i : Nat) (h : i < data.length) :
    isFiller ((data.drop i).take 17) = decide (byteAt data i = 9) := by
  rw [List.drop_eq_getElem_cons h, List.take_succ_cons]
  simp [isFiller, fillerControl, byteAt, List.getD_eq_getElem?_getD, h, Bool.beq_eq_decide_eq]

/-! ### Runs of bundles -/

theorem chunks_eq_map (width count : Nat) (data : Bytes) :
    Wire.chunks width count data =
      (List.range count).map fun i => (data.drop (width * i)).take width := by
  induction count generalizing data with
  | zero => rfl
  | succ count ih =>
    rw [Wire.chunks, ih, List.range_succ_eq_map, List.map_cons, List.map_map, Nat.mul_zero,
      List.drop_zero]
    congr 2
    funext i
    rw [Function.comp, List.drop_drop, Nat.mul_succ, Nat.add_comm]

/-- What is unpacked from a run of bytes are the differences that lie in it. -/
theorem flatMap_bundleDiffs (data : Bytes) :
    ((Wire.wholeChunks bundleLength data).takeWhile fun bundle => !isFiller bundle).flatMap
      bundleDiffs = differences data := by
  have hinside : ∀ i ∈ List.range (data.length / 17), 17 * i + 17 ≤ data.length := by
    intro i hi
    have := List.mem_range.1 hi
    omega
  have htake : ∀ is : List Nat, (∀ i ∈ is, 17 * i + 17 ≤ data.length) →
      ((is.map fun i => (data.drop (17 * i)).take 17).takeWhile fun bundle => !isFiller bundle) =
        (is.takeWhile fun i => byteAt data (17 * i) ≠ 9).map fun i =>
          (data.drop (17 * i)).take 17 := by
    intro is his
    induction is with
    | nil => rfl
    | cons i is ih =>
      have hi := his i List.mem_cons_self
      have hfiller := isFiller_eq data (17 * i) (by omega)
      have ih := ih fun j hj => his j (List.mem_cons_of_mem i hj)
      simp only [List.map_cons, List.takeWhile_cons, hfiller, ih]
      by_cases h9 : byteAt data (17 * i) = 9 <;> simp [h9]
  have hbundle : ∀ i ∈ (List.range (data.length / 17)).takeWhile fun i => byteAt data (17 * i) ≠ 9,
      bundleDiffs ((data.drop (17 * i)).take 17) = bundleAt data (17 * i) := by
    intro i hi
    exact bundleDiffs_eq data (17 * i) (hinside i ((List.takeWhile_prefix _).subset hi))
  rw [Wire.wholeChunks, bundleLength, chunks_eq_map, htake _ hinside, List.flatMap_map, differences,
    List.flatMap_def, List.flatMap_def]
  exact congrArg List.flatten (List.map_congr_left hbundle)

theorem cons_runningSums (x : Int32) (diffs : List Int32) :
    x :: runningSums x diffs = diffs.scanl (· + ·) x := by
  induction diffs generalizing x with
  | nil => rfl
  | cons d diffs ih => rw [runningSums, ih, List.scanl_cons]

end SeisFeed.Waveform
