/-!
# Sample rates

A packet names its sample rate by a code of five bits.
-/

namespace SeisFeed.Waveform

/-- The sample rates in hertz of the codes from 0 up; 0 marks a reserved code. -/
def rateTable : List Int32 :=
  [0, 1, 2, 5, 10, 20, 40, 50, 80, 100, 125, 200, 250, 500, 1000, 25, 120]

/-- The sample rate of a code, and 0 for a code without one. -/
def rateOfCode (code : UInt8) : Int32 :=
  rateTable.getD code.toNat 0

end SeisFeed.Waveform
