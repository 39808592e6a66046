import SeisFeed.Time.Duration
/-!
# Stopping

Work that waits can be told to stop. Time is counted in nanoseconds from some beginning; a stop
signal is the moment from which on the work is to stop, if there is one. A clock wakes a sleeper at
the first tick that is not before the end of its sleep.
-/

namespace SeisFeed.Time

abbrev Moment := Nat

def Moment.ofMilliseconds (count : Nat) : Moment :=
  count * 1000000

/-- The whole milliseconds between the beginning and a moment. -/
def Moment.milliseconds (m : Moment) : Nat :=
  m / 1000000

def Moment.after (now : Moment) (d : Duration) : Moment :=
  now + d.nanoseconds

/-- A clock that wakes sleepers at multiples of its resolution. -/
structure Clock where
  resolution : Nat
  positive : 0 < resolution := by decide

namespace Clock

/-- The clock that wakes sleepers at the very end of their sleep. -/
def exact : Clock where
  resolution := 1

def milliseconds : Clock where
  resolution := 1000000

def wake (c : Clock) (now : Moment) (d : Duration) : Moment :=
  (now.after d + (c.resolution - 1)) / c.resolution * c.resolution

end Clock

/-- When to stop; without a moment, never. -/
structure StopSignal where
  firesAt : Option Moment
  deriving DecidableEq, Repr

namespace StopSignal

def never : StopSignal := ⟨none⟩

def fire (s : StopSignal) (moment : Moment) : StopSignal :=
  ⟨some ((s.firesAt.map (Nat.min moment)).getD moment)⟩

def isStopped (s : StopSignal) (now : Moment) : Bool :=
  s.firesAt.any (· ≤ now)

/-- The moment at which the signal cuts short what runs until `finish`. -/
def cuts? (s : StopSignal) (finish : Moment) : Option Moment :=
  s.firesAt.filter (· < finish)

end StopSignal

/-- What fires a signal. Once it is dropped it fires no more; a moment set before still comes. -/
structure StopHandle where
  signal : StopSignal
  dropped : Bool
  deriving DecidableEq, Repr

namespace StopHandle

def new : StopHandle := ⟨.never, false⟩

def fire (h : StopHandle) (moment : Moment) : StopHandle :=
  if h.dropped then h else { h with signal := h.signal.fire moment }

def drop (h : StopHandle) : StopHandle :=
  { h with dropped := true }

end StopHandle

inductive Waking where
  | rested (now : Moment)
  | stopped (now : Moment)
  deriving DecidableEq, Repr

namespace Waking

def moment : Waking → Moment
  | rested now | stopped now => now

end Waking

def StopSignal.sleep (s : StopSignal) (clock : Clock) (now : Moment) (d : Duration) : Waking :=
  if s.isStopped now then .stopped now
  else
    match s.cuts? (clock.wake now d) with
    | some moment => .stopped moment
    | none => .rested (clock.wake now d)

end SeisFeed.Time
