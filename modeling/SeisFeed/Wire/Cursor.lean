import SeisFeed.Wire.Word
import SeisFeed.Text.Utf8
/-!
# Reading fields

A cursor stands between the bytes already read and those still to come. A reading step moves it past
one field and answers with the field's value, or answers `none` and leaves it where it was because
too few bytes remain. Steps in sequence stop at the first that fails, with the fields before it
read.
-/

namespace SeisFeed.Wire

/-- A place in a run of bytes: how many lie behind it, and those that lie ahead. -/
structure Cursor where
  position : Nat
  rest : Bytes
  deriving DecidableEq, Repr

def Cursor.start (bytes : Bytes) : Cursor :=
  ⟨0, bytes⟩

def Cursor.remaining (c : Cursor) : Nat :=
  c.rest.length

/-- A reading step: what it answers, and where it leaves the cursor. -/
def Read (α : Type) : Type :=
  Cursor → Option α × Cursor

namespace Read

instance : Monad Read where
  pure a := fun c => (some a, c)
  bind r f := fun c =>
    match r c with
    | (some a, c') => f a c'
    | (none, c') => (none, c')

def run {α : Type} (r : Read α) (data : Bytes) : Option α :=
  (r (Cursor.start data)).1

def bytes (n : Nat) : Read Bytes := fun c =>
  let front := c.rest.take n
  if front.length = n then (some front, ⟨c.position + n, c.rest.drop n⟩) else (none, c)

def rest : Read Bytes := fun c =>
  (some c.rest, c)

def byte : Read UInt8 := do
  return UInt8.ofNat (ofBigEndian (← bytes 1))

def word16 : Read UInt16 := do
  return toWord16 (← bytes 2)

def word32 : Read UInt32 := do
  return toWord32 (← bytes 4)

def word64 : Read UInt64 := do
  return toWord64 (← bytes 8)

def int32 : Read Int32 := do
  return toInt32 (← bytes 4)

def int24 : Read Int32 := do
  return signExtend24 (toWord32 (← bytes 3))

/-- A field of text: the bytes before the first zero byte, or all of them. -/
def text (width : Nat) : Read String := do
  return Text.Utf8.decode ((← bytes width).takeWhile (· ≠ 0))

def many {α : Type} (r : Read α) : Nat → Read (List α)
  | 0 => pure []
  | count + 1 => do
    let a ← r
    let as ← many r count
    return a :: as

end Read

end SeisFeed.Wire
