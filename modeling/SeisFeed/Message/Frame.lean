import SeisFeed.Message.Fault
import SeisFeed.Wire.Field
import SeisFeed.Text.Blank
/-!
# Frames

A message is a header of three words (signature, type code, length of the body) followed by the
body. The type code is kept as it came, so that a message of unknown kind can be passed over without
losing the place of the next.
-/

namespace SeisFeed

open Wire (Bytes Read Field)

def signature : UInt32 := 0x7ABCDE0F

def headerLength : Nat := 12

/-- What a header says of its message. -/
structure Header where
  code : UInt32
  length : UInt32
  deriving DecidableEq, Repr

namespace Header

/-- The kind of message that follows, if the type code has a meaning. -/
def kind? (h : Header) : Option MessageKind :=
  MessageKind.ofCode? h.code

def ofBody (kind : MessageKind) (body : Bytes) : Header :=
  ⟨kind.code, UInt32.ofNat body.length⟩

def encode (h : Header) : Bytes :=
  Field.encodeAll [.word32 signature, .word32 h.code, .word32 h.length]

def read : Read (UInt32 × Header) := do
  let opening ← Read.word32
  let code ← Read.word32
  let length ← Read.word32
  return (opening, ⟨code, length⟩)

/-- The header that bytes begin with. A wrong signature makes the rest meaningless. -/
def decode (bytes : Bytes) : Except ProtocolFault Header :=
  match read.run bytes with
  | none => .error (.frameTooShort headerLength bytes.length)
  | some (opening, header) =>
    if opening = signature then .ok header else .error (.signatureMismatch signature opening)

end Header

def encodeMessage (kind : MessageKind) (body : Bytes) : Bytes :=
  (Header.ofBody kind body).encode ++ body

/-- The text a body carries: up to the first zero byte, without blank margins. -/
def messageText (body : Bytes) : String :=
  Text.trim (Text.Utf8.decode (body.takeWhile (· ≠ 0)))

end SeisFeed
