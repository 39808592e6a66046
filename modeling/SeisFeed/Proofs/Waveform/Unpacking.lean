import SeisFeed.Proofs.Waveform.Seams
/-!
# Unpacking runs of bundles

Unpacking goes bundle by bundle and counts on the way; all that it does to a state is to append the
running sums of the differences in front of the first filler. So of the bytes only the whole bundles
count, and a run of bundles may be unpacked in two goes, the second from the state that the first
left behind, unless a filler ends the first.
-/

namespace SeisFeed.Waveform

open Wire (Bytes byteAt)

/-! ### How many differences there are -/

/-- The places of the whole bundles in front of the first filler, counted in bundles. -/
def dataBundles (data : Bytes) : List Nat :=
  (List.range (data.length / 17)).takeWhile fun i => byteAt data (17 * i) ≠ 9

theorem differences_eq_flatMap (data : Bytes) :
    differences data = (dataBundles data).flatMap fun i => bundleAt data (17 * i) :=
  rfl

theorem length_groupAt_le (data : Bytes) (i : Nat) (selector : BitVec 2) :
    (groupAt data i selector).length ≤ 4 := by
  rw [groupAt]
  split_ifs <;> simp

theorem length_bundleAt_le (data : Bytes) (i : Nat) : (bundleAt data i).length ≤ 16 := by
  have hgroup := length_groupAt_le data
  have h0 := hgroup (i + 1) ((byteAt data i).toBitVec.extractLsb' 6 2)
  have h1 := hgroup (i + 5) ((byteAt data i).toBitVec.extractLsb' 4 2)
  have h2 := hgroup (i + 9) ((byteAt data i).toBitVec.extractLsb' 2 2)
  have h3 := hgroup (i + 13) ((byteAt data i).toBitVec.extractLsb' 0 2)
  simp only [bundleAt, List.length_append]
  omega

theorem length_differences_le (data : Bytes) :
    (differences data).length ≤ 16 * (dataBundles data).length := by
  rw [differences_eq_flatMap]
  induction dataBundles data with
  | nil => exact Nat.zero_le _
  | cons i is ih =>
    have hbundle := length_bundleAt_le data (17 * i)
    rw [List.flatMap_cons, List.length_append, List.length_cons]
    omega

/-! ### Runs without a filler -/

theorem isFiller_of_wholeChunks {data : Bytes}
    (h : ∀ i < data.length / 17, byteAt data (17 * i) ≠ 9) :
    ∀ bundle ∈ Wire.wholeChunks bundleLength data, isFiller bundle = false := by
  intro bundle hbundle
  rw [Wire.wholeChunks, chunks_eq_map] at hbundle
  obtain ⟨i, hi, rfl⟩ := List.mem_map.1 hbundle
  have hi : i < data.length / 17 := List.mem_range.1 hi
  rw [bundleLength, isFiller_eq data (17 * i) (by omega)]
  exact decide_eq_false (h i hi)

/-! ### What unpacking does to a state -/

theorem length_runningSums (previous : Int32) (diffs : List Int32) :
    (runningSums previous diffs).length = diffs.length := by
  induction diffs generalizing previous with
  | nil => rfl
  | cons diff diffs ih => rw [runningSums, List.length_cons, List.length_cons, ih]

theorem runningSums_eq_tail (previous : Int32) (diffs : List Int32) :
    runningSums previous diffs = (diffs.scanl (· + ·) previous).tail := by
  rw [← cons_runningSums]
  rfl

namespace Unpacked

variable (u : Unpacked)

theorem unpackBundle?_eq (bundle : Bytes) :
    u.unpackBundle? bundle = if isFiller bundle then none
      else some (u.add (bundleDiffs bundle), (bundleDiffs bundle).length) := by
  rw [unpackBundle?, addBundle?]
  split
  · rfl
  · simp [add, length_runningSums]

/-- Adding up the counts of the bundles counts the differences of all. -/
theorem unpackBundles_eq (bundles : List Bytes) :
    u.unpackBundles bundles = (u.addBundles bundles,
      ((bundles.takeWhile fun bundle => !isFiller bundle).flatMap bundleDiffs).length) := by
  induction bundles generalizing u with
  | nil => simp [unpackBundles, addBundles]
  | cons bundle bundles ih =>
    rw [unpackBundles, unpackBundle?_eq, addBundles_cons, addBundle?]
    cases hfiller : isFiller bundle with
    | true => simp [hfiller]
    | false => simp [hfiller, ih]

theorem unpackAll_eq (data : Bytes) :
    u.unpackAll data = (u.add (differences data), (differences data).length) := by
  rw [unpackAll, unpackBundles_eq, addBundles, flatMap_bundleDiffs]

theorem unpackAll_append {front : Bytes} (hwhole : front.length % 17 = 0)
    (hdata : ∀ i < front.length / 17, byteAt front (17 * i) ≠ 9) (back : Bytes) :
    u.unpackAll (front ++ back) =
      let (v, count) := u.unpackAll front
      let (w, count') := v.unpackAll back
      (w, count + count') := by
  simp only [unpackAll_eq, differences_append hwhole (isFiller_of_wholeChunks hdata), add_append,
    List.length_append]

/-- Unpacking appends the wrapping sums of the value before and of the differences, with their signs
extended, in all whole bundles in front of the first filler; counts them, sixteen in a bundle at the
most; and leaves the last behind as the value that the next difference is added to. Bytes behind the
last whole bundle change nothing, and two runs of bundles, no filler in the first, are unpacked
together as one after the other. -/
theorem unpackAll_streams (data : Bytes) :
    let sums := ((differences data).scanl (· + ·) u.previous).tail
    u.unpackAll data = (⟨u.samples ++ sums, sums.getLastD u.previous⟩, sums.length) ∧
      sums.length ≤ 16 * (dataBundles data).length ∧
      (∀ i ∈ dataBundles data, (bundleAt data (17 * i)).length ≤ 16) ∧
      u.unpackAll (data.take (17 * (data.length / 17))) = u.unpackAll data ∧
      ∀ front back : Bytes, front.length % 17 = 0 → back.length % 17 = 0 →
        (∀ i < front.length / 17, byteAt front (17 * i) ≠ 9) →
        u.unpackAll (front ++ back) =
          let (v, count) := u.unpackAll front
          let (w, count') := v.unpackAll back
          (w, count + count') := by
  intro sums
  have hsums : sums = runningSums u.previous (differences data) := (runningSums_eq_tail _ _).symm
  have hcount : sums.length = (differences data).length := by rw [hsums, length_runningSums]
  refine ⟨?_, ?_, ?_, ?_, ?_⟩
  · rw [unpackAll_eq, add, hcount, hsums]
  · rw [hcount]
    exact length_differences_le data
  · exact fun i _ => length_bundleAt_le data (17 * i)
  · exact congrArg u.unpackBundles (Wire.wholeChunks_take (by decide) data)
  · exact fun front back hwhole _ hdata => u.unpackAll_append hwhole hdata back

theorem unpackAll_streams_past_largest :
    let bundle : Bytes := [0xE4, 0, 0, 0, 1, 255, 254, 0, 3, 1, 2, 253, 4, 0, 0, 0, 0]
    let filler : Bytes := 9 :: List.replicate 16 0
    let u : Unpacked := ⟨[5], 2147483647⟩
    let v : Unpacked := ⟨[5, -2147483648, 2147483646, -2147483647, -2147483646, -2147483644,
      -2147483647, -2147483643], -2147483643⟩
    u.unpackAll bundle = (v, 7) ∧ v.unpackAll (filler ++ bundle) = (v, 0) ∧
      u.unpackAll (bundle ++ (filler ++ bundle)) = (v, 7) := by
  intro bundle filler u v
  have hfirst : u.unpackAll bundle = (v, 7) := by decide
  have hsecond : v.unpackAll (filler ++ bundle) = (v, 0) := by decide
  obtain ⟨-, -, -, -, happend⟩ := u.unpackAll_streams bundle
  have hboth := happend bundle (filler ++ bundle) (by decide) (by decide) (by decide)
  simp only [hfirst, hsecond] at hboth
  exact ⟨hfirst, hsecond, hboth⟩

end Unpacked

end SeisFeed.Waveform
