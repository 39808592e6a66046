/-!
# Comparison without regard to ASCII case

The letters `A` to `Z` equal their small forms and every other character equals only itself, whether
the text is compared by characters or by bytes.
-/

namespace SeisFeed.Text

/-- Whether two texts are equal when the case of ASCII letters is ignored. -/
def sameCaseless (a b : String) : Bool :=
  a.toList.map Char.toLower == b.toList.map Char.toLower

/-- The small form of a byte that spells an ASCII capital, and any other byte itself. -/
def lowerByte (b : UInt8) : UInt8 :=
  if 0x41 ≤ b ∧ b ≤ 0x5A then b + 0x20 else b

/-- Whether two bytes are equal when the case of ASCII letters is ignored. -/
def sameByteCaseless (a b : UInt8) : Bool :=
  lowerByte a == lowerByte b

end SeisFeed.Text
