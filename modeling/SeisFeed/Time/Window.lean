/-!
# Windows of time

A window runs from its start up to but not including its stop, in whole seconds since 1970.
-/

namespace SeisFeed.Time

structure Window where
  start : Int32
  stop : Int32
  deriving DecidableEq, Repr

def saturate (i : Int) : Int32 :=
  Int32.ofInt (max Int32.minValue.toInt (min Int32.maxValue.toInt i))

namespace Window

def span? (w : Window) : Option Int32 :=
  let length := w.stop.toInt - w.start.toInt
  if Int32.minValue.toInt ≤ length ∧ length ≤ Int32.maxValue.toInt then some (Int32.ofInt length)
  else none

/-- The window of the same length that starts where this one stops; it is cut off where time
ends. -/
def next? (w : Window) : Option Window :=
  w.span?.map fun span => ⟨w.stop, saturate (w.stop.toInt + span.toInt)⟩

def successors? (w : Window) : Nat → Option (List (Window × Int32))
  | 0 => do return [(w, ← w.span?)]
  | count + 1 => do
    let span ← w.span?
    let next ← w.next?
    let rest ← next.successors? count
    return (w, span) :: rest

end Window

end SeisFeed.Time
