import SeisFeed.Wire.Word
/-!
# Bundles

Samples travel as differences, packed into bundles of seventeen bytes: a control byte and four
groups of four bytes. Two bits of the control byte say for each group, the highest first, whether it
holds no difference, four of one byte, two of two bytes or one of four bytes. A bundle whose control
byte is `fillerControl` only fills up its packet; samples end before the first of these.

Each sample is the sum of the one before and a difference, and the sums wrap. The chain runs on
across groups, bundles and packets.
-/

namespace SeisFeed.Waveform

open Wire (Bytes)

def bundleLength : Nat := 17

def fillerControl : UInt8 := 9

/-- The width in bytes of the differences that a selector announces. -/
def diffWidth? : Nat → Option Nat
  | 1 => some 1
  | 2 => some 2
  | 3 => some 4
  | _ => none

def twosComplement (bytes : Bytes) : Int32 :=
  Int32.ofInt (Int.bmod (Wire.ofBigEndian bytes) (Nat.pow 256 bytes.length))

/-- The four selectors of a control byte, the highest two bits first. -/
def selectors (control : UInt8) : List Nat :=
  [64, 16, 4, 1].map fun place => control.toNat / place % 4

def groupDiffs (selector : Nat) (group : Bytes) : List Int32 :=
  match diffWidth? selector with
  | none => []
  | some width => (Wire.wholeChunks width group).map twosComplement

/-- Whether a bundle holds no samples and ends the chain of its packet. -/
def isFiller (bundle : Bytes) : Bool :=
  bundle.head? == some fillerControl

def bundleDiffs : Bytes → List Int32
  | [] => []
  | control :: payload =>
    ((selectors control).zip (Wire.chunks 4 4 payload)).flatMap fun (selector, group) =>
      groupDiffs selector group

/-- The wrapping sums of a value and each of the differences so far. -/
def runningSums (previous : Int32) : List Int32 → List Int32
  | [] => []
  | diff :: diffs => (previous + diff) :: runningSums (previous + diff) diffs

theorem runningSums_append (previous : Int32) (as bs : List Int32) :
    runningSums previous (as ++ bs) =
      runningSums previous as ++ runningSums ((runningSums previous as).getLastD previous) bs := by
  induction as generalizing previous with
  | nil => rfl
  | cons a as ih => simp only [List.cons_append, runningSums, ih, List.getLastD_cons]

/-- The samples unpacked so far and the value that the next difference is added to. -/
structure Unpacked where
  samples : List Int32
  previous : Int32
  deriving DecidableEq, Repr

namespace Unpacked

def add (u : Unpacked) (diffs : List Int32) : Unpacked :=
  let sums := runningSums u.previous diffs
  ⟨u.samples ++ sums, sums.getLastD u.previous⟩

@[simp] theorem add_nil (u : Unpacked) : u.add [] = u := by
  simp [add, runningSums]

theorem add_append (u : Unpacked) (as bs : List Int32) : u.add (as ++ bs) = (u.add as).add bs := by
  have h : (runningSums u.previous as ++
      runningSums ((runningSums u.previous as).getLastD u.previous) bs).getLastD u.previous =
        (runningSums ((runningSums u.previous as).getLastD u.previous) bs).getLastD
          ((runningSums u.previous as).getLastD u.previous) := by
    simp only [List.getLastD_eq_getLast?, List.getLast?_append]
    cases (runningSums _ bs).getLast? <;> rfl
  simp only [add, runningSums_append, h, List.append_assoc]

/-- Appends the samples of a bundle. A filler appends nothing and ends the chain. -/
def addBundle? (u : Unpacked) (bundle : Bytes) : Option Unpacked :=
  if isFiller bundle then none else some (u.add (bundleDiffs bundle))

def addBundles (u : Unpacked) (bundles : List Bytes) : Unpacked :=
  u.add ((bundles.takeWhile fun bundle => !isFiller bundle).flatMap bundleDiffs)

/-- Bundles are unpacked one after the other, and the first filler ends it. -/
theorem addBundles_cons (u : Unpacked) (bundle : Bytes) (bundles : List Bytes) :
    u.addBundles (bundle :: bundles) =
      match u.addBundle? bundle with
      | none => u
      | some u => u.addBundles bundles := by
  cases h : isFiller bundle <;> simp [addBundles, addBundle?, h, add_append]

/-- Appends the samples of the whole bundles in `data`, up to the first filler. -/
def addAll (u : Unpacked) (data : Bytes) : Unpacked :=
  u.addBundles (Wire.wholeChunks bundleLength data)

/-- Appends the samples of a bundle that is no filler, and counts them. -/
def unpackBundle? (u : Unpacked) (bundle : Bytes) : Option (Unpacked × Nat) :=
  (u.addBundle? bundle).map fun v => (v, v.samples.length - u.samples.length)

/-- Unpacks bundle after bundle up to the first filler, and counts the samples of all. -/
def unpackBundles (u : Unpacked) : List Bytes → Unpacked × Nat
  | [] => (u, 0)
  | bundle :: bundles =>
    match u.unpackBundle? bundle with
    | none => (u, 0)
    | some (v, count) =>
      let (w, total) := v.unpackBundles bundles
      (w, count + total)

/-- Unpacks the whole bundles in `data`, up to the first filler, and counts the samples. -/
def unpackAll (u : Unpacked) (data : Bytes) : Unpacked × Nat :=
  u.unpackBundles (Wire.wholeChunks bundleLength data)

end Unpacked

end SeisFeed.Waveform
