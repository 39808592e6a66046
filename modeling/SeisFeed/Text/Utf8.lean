/-!
# Text as bytes

Text travels as UTF-8. Encoding is exact. Decoding accepts any bytes: a well-formed character is
itself, and a broken one is replaced by `U+FFFD`. What counts as one broken character is the longest
run of bytes that could still have been completed, so a lead byte is replaced together with the
continuation bytes it had already been given, and the byte that broke it starts afresh.

The decoder is a machine that takes one byte at a time, so it recurses on the bytes alone.
-/

namespace SeisFeed.Text.Utf8

def encode (s : String) : List UInt8 :=
  s.toList.flatMap String.utf8EncodeChar

def replacement : Char := '\uFFFD'

/-- A character under way: the bits so far, the range its next byte must lie in, and how many bytes
come after that one. -/
structure Pending where
  code : Nat
  low : UInt8
  high : UInt8
  after : Nat
  deriving DecidableEq, Repr

/-- What a byte does between characters: it is a whole character, begins one, or spells none. The
ranges of the second byte exclude overlong forms, surrogates and code points above `U+10FFFF`. -/
def begin (b : UInt8) : List Char × Option Pending :=
  if b < 0x80 then ([Char.ofNat b.toNat], none)
  else if b < 0xC2 then ([replacement], none)
  else if b < 0xE0 then ([], some ⟨b.toNat % 0x20, 0x80, 0xBF, 0⟩)
  else if b < 0xF0 then
    ([], some ⟨b.toNat % 0x10, if b = 0xE0 then 0xA0 else 0x80, if b = 0xED then 0x9F else 0xBF, 1⟩)
  else if b < 0xF5 then
    ([], some ⟨b.toNat % 0x08, if b = 0xF0 then 0x90 else 0x80, if b = 0xF4 then 0x8F else 0xBF, 2⟩)
  else ([replacement], none)

/-- One byte of decoding: the characters it settles and the character under way after it. -/
def step : Option Pending → UInt8 → List Char × Option Pending
  | none, b => begin b
  | some p, b =>
    if p.low ≤ b ∧ b ≤ p.high then
      let code := p.code * 0x40 + b.toNat % 0x40
      match p.after with
      | 0 => ([Char.ofNat code], none)
      | after + 1 => ([], some ⟨code, 0x80, 0xBF, after⟩)
    else (replacement :: (begin b).1, (begin b).2)

/-- The characters that bytes spell after a character under way. -/
def scan : Option Pending → List UInt8 → List Char
  | none, [] => []
  | some _, [] => [replacement]
  | p, b :: rest => (step p b).1 ++ scan (step p b).2 rest

/-- The text that bytes spell, with broken characters replaced. -/
def decode (bytes : List UInt8) : String :=
  String.ofList (scan none bytes)

end SeisFeed.Text.Utf8
