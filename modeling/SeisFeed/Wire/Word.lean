/-!
# Big-endian words

All integers travel most significant byte first. A word of any width is its number written in base
256, so one pair of functions on natural numbers serves every field, and the fixed-width types are
reached through it: writing reduces to the width, reading cannot leave it.
-/

namespace SeisFeed.Wire

abbrev Bytes := List UInt8

/-- The last `width` digits of a number in base 256, most significant first. -/
def bigEndian : Nat → Nat → Bytes
  | 0, _ => []
  | width + 1, n => bigEndian width (n / 256) ++ [UInt8.ofNat n]

def ofBigEndian (bytes : Bytes) : Nat :=
  bytes.foldl (fun n b => n * 256 + b.toNat) 0

def word16 (w : UInt16) : Bytes :=
  bigEndian 2 w.toNat

def word32 (w : UInt32) : Bytes :=
  bigEndian 4 w.toNat

def word64 (w : UInt64) : Bytes :=
  bigEndian 8 w.toNat

/-- The four bytes of a signed 32-bit integer, in two's complement. -/
def int32 (i : Int32) : Bytes :=
  word32 i.toUInt32

/-- The three bytes of the low 24 bits of a signed integer. -/
def int24 (i : Int32) : Bytes :=
  bigEndian 3 i.toUInt32.toNat

def toWord16 (bytes : Bytes) : UInt16 :=
  UInt16.ofNat (ofBigEndian bytes)

def toWord32 (bytes : Bytes) : UInt32 :=
  UInt32.ofNat (ofBigEndian bytes)

def toWord64 (bytes : Bytes) : UInt64 :=
  UInt64.ofNat (ofBigEndian bytes)

def toInt32 (bytes : Bytes) : Int32 :=
  (toWord32 bytes).toInt32

/-- The low 24 bits of a word as a signed integer: the value congruent to them modulo `2 ^ 24` that
lies from `-2 ^ 23` up to but not including `2 ^ 23`. -/
def signExtend24 (raw : UInt32) : Int32 :=
  Int32.ofInt (Int.bmod raw.toNat 0x1000000)

/-! ### Chunks -/

def chunks (width : Nat) : Nat → Bytes → List Bytes
  | 0, _ => []
  | count + 1, bytes => bytes.take width :: chunks width count (bytes.drop width)

/-- The whole chunks of `width` bytes; a shorter remainder is left out. -/
def wholeChunks (width : Nat) (bytes : Bytes) : List Bytes :=
  chunks width (bytes.length / width) bytes

end SeisFeed.Wire
