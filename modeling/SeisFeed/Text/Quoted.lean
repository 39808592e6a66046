import SeisFeed.Text.Unprintable
import SeisFeed.Text.Extender
/-!
# Quoted text

Error texts show a user's text between double quotes, so that blanks and invisible characters can be
seen. The quote, the backslash and four control characters have an escape of their own; any other
unprintable character and every grapheme extender is written as its hexadecimal code point.
-/

namespace SeisFeed.Text

def inRanges (ranges : List (Nat × Nat)) (code : Nat) : Bool :=
  ranges.any fun range => range.1 ≤ code && code ≤ range.2

def isHidden (c : Char) : Bool :=
  inRanges unprintableRanges c.toNat || inRanges extenderRanges c.toNat

def escape (c : Char) : List Char :=
  if c = '\x00' then ['\\', '0']
  else if c = '\t' then ['\\', 't']
  else if c = '\r' then ['\\', 'r']
  else if c = '\n' then ['\\', 'n']
  else if c = '"' then ['\\', '"']
  else if c = '\\' then ['\\', '\\']
  else if isHidden c then ['\\', 'u', '\x7b'] ++ Nat.toDigits 16 c.toNat ++ ['\x7d']
  else [c]

def quoted (s : String) : String :=
  String.ofList ('"' :: s.toList.flatMap escape ++ ['"'])

end SeisFeed.Text
