/-!
# Hexadecimal text

Signatures and channel keys are shown as eight capital hexadecimal digits after `0x`. Bytes are
written for tools as two small digits each, and read back.
-/

namespace SeisFeed.Text

/-- The capital hexadecimal digit of a number below sixteen. -/
def hexDigit (n : Nat) : Char :=
  if n < 10 then Char.ofNat (0x30 + n) else Char.ofNat (0x37 + n)

/-- The last `count` hexadecimal digits of a number, most significant first. -/
def hexDigits : Nat → Nat → List Char
  | 0, _ => []
  | count + 1, n => hexDigits count (n / 16) ++ [hexDigit (n % 16)]

def hexWord (word : UInt32) : String :=
  "0x" ++ String.ofList (hexDigits 8 word.toNat)

/-! ### Bytes -/

def hexOfBytes (bytes : List UInt8) : String :=
  String.ofList (bytes.flatMap fun b =>
    [Nat.digitChar (b.toNat / 16), Nat.digitChar (b.toNat % 16)])

def hexValue? (c : Char) : Option Nat :=
  if '0' ≤ c ∧ c ≤ '9' then some (c.toNat - 0x30)
  else if 'a' ≤ c ∧ c ≤ 'f' then some (c.toNat - 0x57)
  else none

/-- The bytes that digits spell in front of those already read, which are given the latest first. -/
def readHex? (read : List UInt8) : List Char → Option (List UInt8)
  | [] => some read.reverse
  | high :: low :: rest => do
    readHex? (UInt8.ofNat ((← hexValue? high) * 16 + (← hexValue? low)) :: read) rest
  | [_] => none

def bytesOfHex? (s : String) : Option (List UInt8) :=
  readHex? [] s.toList

end SeisFeed.Text
