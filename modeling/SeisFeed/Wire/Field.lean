import SeisFeed.Wire.Cursor
/-!
# Fields

What messages are made of: words, signed integers, raw bytes and text in a space of a fixed width. A
body is written as the list of its fields. The shape of a field is what a reader must know to read
it back.
-/

namespace SeisFeed.Wire

/-- Text in a space of `width` bytes: cut off where the space ends, or filled up with zero bytes. -/
def textField (s : String) (width : Nat) : Bytes :=
  let bytes := (Text.Utf8.encode s).take width
  bytes ++ List.replicate (width - bytes.length) 0

inductive Field where
  | byte (b : UInt8)
  | word16 (w : UInt16)
  | word32 (w : UInt32)
  | word64 (w : UInt64)
  /-- The low 24 bits of a signed integer. -/
  | int24 (i : Int32)
  | int32 (i : Int32)
  | bytes (b : Bytes)
  | text (s : String) (width : Nat)
  deriving DecidableEq, Repr

/-- What is known of a field before it is read. -/
inductive Shape where
  | byte
  | word16
  | word32
  | word64
  | int24
  | int32
  | bytes (length : Nat)
  | text (width : Nat)
  deriving DecidableEq, Repr

namespace Field

def encode : Field → Bytes
  | .byte b => [b]
  | .word16 w => Wire.word16 w
  | .word32 w => Wire.word32 w
  | .word64 w => Wire.word64 w
  | .int24 i => Wire.int24 i
  | .int32 i => Wire.int32 i
  | .bytes b => b
  | .text s width => textField s width

def encodeAll (fields : List Field) : Bytes :=
  fields.flatMap encode

def shape : Field → Shape
  | .byte _ => .byte
  | .word16 _ => .word16
  | .word32 _ => .word32
  | .word64 _ => .word64
  | .int24 _ => .int24
  | .int32 _ => .int32
  | .bytes b => .bytes b.length
  | .text _ width => .text width

end Field

namespace Shape

def width : Shape → Nat
  | .byte => 1
  | .word16 => 2
  | .word32 => 4
  | .word64 => 8
  | .int24 => 3
  | .int32 => 4
  | .bytes length => length
  | .text width => width

def read : Shape → Read Field
  | .byte => do return .byte (← Read.byte)
  | .word16 => do return .word16 (← Read.word16)
  | .word32 => do return .word32 (← Read.word32)
  | .word64 => do return .word64 (← Read.word64)
  | .int24 => do return .int24 (← Read.int24)
  | .int32 => do return .int32 (← Read.int32)
  | .bytes length => do return .bytes (← Read.bytes length)
  | .text width => do return .text (← Read.text width) width

/-- Tries to read fields one after the other. A field that does not fit is left out, and the next is
tried from the same place. -/
def readEach : List Shape → Cursor → List (Option Field) × Cursor
  | [], c => ([], c)
  | shape :: shapes, c =>
    let (field, c) := shape.read c
    let (fields, c) := readEach shapes c
    (field :: fields, c)

end Shape

end SeisFeed.Wire
