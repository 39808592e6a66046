import SeisFeed.Session.Fault
import SeisFeed.Time.Backoff
import SeisFeed.Time.Stop
/-!
# Retrying

An operation is attempted until it succeeds, fails in a way that another attempt would not mend, or
has been attempted often enough. Between attempts there is a wait, which grows. A stop signal cuts
short an attempt or a wait, and keeps the next attempt from starting.

The attempts act on a world, and each tells how long it took. They are counted in 32 bits; one that
could not be counted is never made. Without a limit there may be as many attempts as can be counted,
so their number is bounded by an amount of fuel, and running out of it is a result of its own.
-/

namespace SeisFeed.Session

open Time (Backoff Clock Duration Moment StopSignal)

/-- Why a computation gives no answer at all. -/
inductive Halt where
  /-- It goes on for ever. -/
  | endless
  /-- It comes upon a number that is not defined. -/
  | undefined
  deriving DecidableEq, Repr

/-- One more than a count, if that is still a count of 32 bits. -/
def countOn? (count : Nat) : Option Nat :=
  if count + 1 < UInt32.size then some (count + 1) else none

/-- How an attempt went: how long it took, and its result. -/
structure Attempt (α : Type) where
  duration : Duration
  result : Except SessionFault α

/-- How retrying went: its result, the attempts made with the moments they started, and the moment
and the world in which it ended. -/
structure Retried (α σ : Type) where
  result : Except SessionFault α
  calls : List (Nat × Moment)
  finish : Moment
  world : σ

def Retried.after {α σ : Type} (number : Nat) (start : Moment) (r : Retried α σ) : Retried α σ :=
  { r with calls := (number, start) :: r.calls }

/-- What governs retrying: the schedule of waits, the clock and the stop signal. -/
structure RetryPolicy where
  backoff : Backoff
  clock : Clock
  stop : StopSignal

namespace RetryPolicy

variable {α σ : Type}

/-- What follows an attempt that started at `start`. -/
inductive Verdict (α : Type) where
  | settled (result : Except SessionFault α) (finish : Moment)
  | again (start : Moment)

/-- Judges the attempt of a number that started at a moment, before a wait of `delay`. -/
def judge (p : RetryPolicy) (number : Nat) (delay : Duration) (start : Moment)
    (attempt : Attempt α) : Verdict α :=
  let done := start.after attempt.duration
  match p.stop.cuts? done with
  | some moment => .settled (.error .stopped) moment
  | none =>
    match attempt.result with
    | .ok value => .settled (.ok value) done
    | .error fault =>
      if !fault.isConnectionFatal then .settled (.error fault) done
      else if p.backoff.exhausted number then .settled (.error (.reconnectFailed number)) done
      else
        match p.stop.sleep p.clock done delay with
        | .stopped moment => .settled (.error .stopped) moment
        | .rested moment => .again moment

/-- Attempts an operation from the attempt of a number on, which may start now and which a wait of
`delay` is to follow. -/
def attemptFrom (p : RetryPolicy) (op : Nat → σ → Attempt α × σ) :
    Nat → Nat → Duration → Moment → σ → Except Halt (Retried α σ)
  | 0, _, _, _, _ => .error .endless
  | fuel + 1, number, delay, now, world =>
    if p.stop.isStopped now then .ok ⟨.error .stopped, [], now, world⟩
    else
      let (attempt, world) := op number world
      match p.judge number delay now attempt with
      | .settled result finish => .ok ⟨result, [(number, now)], finish, world⟩
      | .again start =>
        match p.backoff.next? delay, countOn? number with
        | some delay, some next =>
          (p.attemptFrom op fuel next delay start world).map (Retried.after number now)
        | _, _ => .error .undefined

/-- Attempts an operation, at most as often as there is fuel, beginning at moment 0. -/
def retry (p : RetryPolicy) (fuel : Nat) (op : Nat → σ → Attempt α × σ) (world : σ) :
    Except Halt (Retried α σ) :=
  p.attemptFrom op fuel 1 p.backoff.initial 0 world

end RetryPolicy

end SeisFeed.Session
