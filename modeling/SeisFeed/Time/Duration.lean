import SeisFeed.Time.Nearest
/-!
# Durations

Lengths of time to the nanosecond, their text, and their product with a factor.
-/

namespace SeisFeed.Time

structure Duration where
  nanoseconds : Nat
  deriving DecidableEq, Repr

namespace Duration

def zero : Duration := ⟨0⟩

def ofParts (seconds nanoseconds : Nat) : Duration :=
  ⟨seconds * 1000000000 + nanoseconds⟩

def ofSeconds (seconds : Nat) : Duration :=
  ofParts seconds 0

def ofMilliseconds (milliseconds : Nat) : Duration :=
  ⟨milliseconds * 1000000⟩

def seconds (d : Duration) : Nat :=
  d.nanoseconds / 1000000000

def fraction (d : Duration) : Nat :=
  d.nanoseconds % 1000000000

def min (a b : Duration) : Duration :=
  ⟨Nat.min a.nanoseconds b.nanoseconds⟩

/-! ### Text -/

/-- A count of nanoseconds in a unit of `10 ^ places` of them, with the decimals it needs. -/
def inUnit (places nanoseconds : Nat) : String :=
  let unit := Nat.pow 10 places
  let whole := nanoseconds / unit
  let digits := (Nat.toDigits 10 (unit + nanoseconds % unit)).drop 1
  let decimals := (digits.reverse.dropWhile (· = '0')).reverse
  if decimals = [] then toString whole else s!"{whole}.{String.ofList decimals}"

def text (d : Duration) : String :=
  let n := d.nanoseconds
  if 1000000000 ≤ n then s!"{inUnit 9 n}s"
  else if 1000000 ≤ n then s!"{inUnit 6 n}ms"
  else if 1000 ≤ n then s!"{inUnit 3 n}µs"
  else s!"{n}ns"

/-! ### Products -/

def toFloat (d : Duration) : Float :=
  Float.ofNat d.seconds + Float.ofNat d.fraction / 1000000000.0

/-- The first number of seconds that a duration cannot have. -/
def secondsBound : Float := 18446744073709551616.0

/-- The duration nearest to a number of seconds. It is undefined for a negative number, for one that
is too large, and for one that is no number. -/
def ofFloat? (seconds : Float) : Option Duration :=
  if 0.0 ≤ seconds ∧ seconds < secondsBound then some ⟨nearestMultiple 1000000000 seconds⟩
  else none

/-- The duration multiplied by a factor, where that is defined. -/
def scale? (d : Duration) (factor : Float) : Option Duration :=
  ofFloat? (d.toFloat * factor)

end Duration

end SeisFeed.Time
