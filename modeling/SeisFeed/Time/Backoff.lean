import SeisFeed.Time.Duration
/-!
# Backoff

How long to wait between failed attempts, and how many of them to make. The first wait is as given;
each further one is the last multiplied by a factor, up to a limit.
-/

namespace SeisFeed.Time

/-- A schedule of waits between attempts. -/
structure Backoff where
  initial : Duration
  /-- What the factor may not raise a wait above. -/
  max : Duration
  multiplier : Float
  /-- How many attempts to make; 0 sets no limit. -/
  maxAttempts : UInt32
  deriving Repr

namespace Backoff

/-- One second at first, doubled up to ten seconds, without end. -/
def standard : Backoff where
  initial := .ofSeconds 1
  max := .ofSeconds 10
  multiplier := 2.0
  maxAttempts := 0

/-- The wait after the given one, where the product with the factor is defined. -/
def next? (b : Backoff) (current : Duration) : Option Duration :=
  (current.scale? b.multiplier).map (Duration.min · b.max)

/-- The first waits after the given one, or nothing if one of them is undefined. -/
def delays? (b : Backoff) (current : Duration) : Nat → Option (List Duration)
  | 0 => some []
  | count + 1 => do
    let delay ← b.next? current
    let delays ← b.delays? delay count
    return delay :: delays

def exhausted (b : Backoff) (attempt : Nat) : Bool :=
  b.maxAttempts ≠ 0 && b.maxAttempts.toNat ≤ attempt

end Backoff

end SeisFeed.Time
