import SeisFeed.Proofs.Session.Retrying
import Mathlib.Order.Monotone.Basic
/-!
# When attempts are made

How an operation's attempts will go may be known in advance, whatever they leave of the world. Then
it is known when each of them starts and ends, if it is made at all: one after the other, each when
the wait after the last is over. Retrying makes the attempts of this timetable up to the first that
settles its result.
-/

namespace SeisFeed

/-- The waits of a schedule, all of them defined: the first, and after each the next. -/
structure Time.Backoff.Waits (b : Backoff) (wait : Nat → Duration) : Prop where
  first : wait 0 = b.initial
  next : ∀ n, b.next? (wait n) = some (wait (n + 1))

namespace Session

open Time (Backoff Clock Duration Moment StopSignal)

/-- Whether an attempt failed in a way that another may mend. -/
def Attempt.isFatal {α : Type} (attempt : Attempt α) : Bool :=
  match attempt.result with
  | .ok _ => false
  | .error fault => fault.isConnectionFatal

/-- A run that goes on behind some calls. -/
def Retried.behind {α σ : Type} (calls : List (Nat × Moment)) (r : Retried α σ) : Retried α σ :=
  { r with calls := calls ++ r.calls }

section

variable {α σ : Type} (outcome : Except Halt (Retried α σ))

theorem map_behind_nil : outcome.map (Retried.behind []) = outcome := by
  cases outcome <;> rfl

theorem map_behind_cons (number : Nat) (start : Moment) (calls : List (Nat × Moment)) :
    outcome.map (Retried.behind ((number, start) :: calls)) =
      (outcome.map (Retried.behind calls)).map (Retried.after number start) := by
  cases outcome <;> rfl

end

/-- How the attempts of an operation will go, by their numbers from 1 on, and the schedule and the
clock by which they follow one another. -/
structure Script (α : Type) where
  backoff : Backoff
  clock : Clock
  wait : Nat → Duration
  waits : backoff.Waits wait
  outcome : Nat → Attempt α

namespace Script

variable {α σ : Type}

def policy (s : Script α) (stop : StopSignal) : RetryPolicy :=
  ⟨s.backoff, s.clock, stop⟩

/-- An operation goes as a script says, whatever it makes of the world. -/
def Performed (s : Script α) (op : Nat → σ → Attempt α × σ) : Prop :=
  ∀ number world, (op number world).1 = s.outcome number

/-- When the attempt after the first `n` starts: at once, or when the last wait is over. -/
def start (s : Script α) : Nat → Moment
  | 0 => 0
  | n + 1 => s.clock.wake ((s.start n).after (s.outcome (n + 1)).duration) (s.wait n)

/-- When the attempt after the first `n` ends. -/
def ending (s : Script α) (n : Nat) : Moment :=
  (s.start n).after (s.outcome (n + 1)).duration

/-- Some attempts after the first `n`, with the moments they start. -/
def calls (s : Script α) (n count : Nat) : List (Nat × Moment) :=
  (List.range' n count).map fun i => (i + 1, s.start i)

/-- What the attempt after the first `n` settles. -/
def settled? (s : Script α) (n : Nat) : Option (Except SessionFault α) :=
  RetryPolicy.settles? s.backoff (n + 1) (s.outcome (n + 1)).result

/-- An attempt is made after the first `n` if it can be counted and none of these settles
anything. -/
structure Makes (s : Script α) (n : Nat) : Prop where
  counted : n + 1 < UInt32.size
  unsettled : ∀ i < n, s.settled? i = none

/-- The world that attempts leave. -/
def worldAfter (op : Nat → σ → Attempt α × σ) (calls : List (Nat × Moment)) (world : σ) : σ :=
  calls.foldl (fun world (number, _) => (op number world).2) world

variable {s : Script α} {op : Nat → σ → Attempt α × σ} {stop : StopSignal}
  {n count last fuel : Nat} {result : Except SessionFault α}

/-! ### Moments -/

theorem start_succ (s : Script α) (n : Nat) :
    s.start (n + 1) = s.clock.wake (s.ending n) (s.wait n) :=
  rfl

theorem start_le_ending (s : Script α) (n : Nat) : s.start n ≤ s.ending n :=
  Moment.le_after _ _

theorem ending_le_start (s : Script α) (n : Nat) : s.ending n ≤ s.start (n + 1) :=
  Nat.le_trans (Moment.le_after _ _) (s.clock.after_le_wake _ _)

theorem monotone_start (s : Script α) : Monotone s.start :=
  monotone_nat_of_le_succ fun n => Nat.le_trans (s.start_le_ending n) (s.ending_le_start n)

theorem calls_succ (s : Script α) (n count : Nat) :
    s.calls n (count + 1) = (n + 1, s.start n) :: s.calls (n + 1) count := by
  rw [calls, List.range'_succ, List.map_cons, calls]

theorem calls_concat (s : Script α) (n : Nat) :
    s.calls 0 (n + 1) = s.calls 0 n ++ [(n + 1, s.start n)] := by
  rw [calls, List.range'_concat, List.map_append, calls, Nat.zero_add, Nat.one_mul]
  rfl

theorem worldAfter_concat (op : Nat → σ → Attempt α × σ) (calls : List (Nat × Moment))
    (call : Nat × Moment) (world : σ) :
    worldAfter op (calls ++ [call]) world = (op call.1 (worldAfter op calls world)).2 := by
  rw [worldAfter, List.foldl_append, worldAfter]
  rfl

/-! ### Runs -/

theorem makes_zero (s : Script α) : s.Makes 0 :=
  ⟨by decide, nofun⟩

theorem Makes.mono {m : Nat} (h : s.Makes n) (hle : m ≤ n) : s.Makes m :=
  ⟨Nat.lt_of_le_of_lt (Nat.add_le_add_right hle 1) h.counted,
    fun i hi => h.unsettled i (Nat.lt_of_lt_of_le hi hle)⟩

theorem Performed.eq (hop : s.Performed op) (number : Nat) (world : σ) :
    op number world = (s.outcome number, (op number world).2) :=
  Prod.ext (hop number world) rfl

theorem retry_eq (s : Script α) (stop : StopSignal) (fuel : Nat) (op : Nat → σ → Attempt α × σ)
    (world : σ) :
    (s.policy stop).retry fuel op world =
      (s.policy stop).attemptFrom op fuel (0 + 1) (s.wait 0) (s.start 0) world := by
  rw [RetryPolicy.retry, s.waits.first]
  rfl

/-- An attempt behind which another is made comes to nothing but the world that it leaves. -/
theorem attemptFrom_unsettled (hop : s.Performed op) (hmakes : s.Makes (n + 1))
    (hstop : stop.Beyond (s.start (n + 1))) (fuel : Nat) (world : σ) :
    (s.policy stop).attemptFrom op (fuel + 1) (n + 1) (s.wait n) (s.start n) world =
      ((s.policy stop).attemptFrom op fuel (n + 1 + 1) (s.wait (n + 1)) (s.start (n + 1))
        (op (n + 1) world).2).map (Retried.after (n + 1) (s.start n)) := by
  have hjudge : (s.policy stop).judge (n + 1) (s.wait n) (s.start n) (s.outcome (n + 1)) =
      .again (s.start (n + 1)) :=
    RetryPolicy.judge_again (p := s.policy stop) (s.wait n) (s.start n)
      (hmakes.unsettled n (Nat.lt_succ_self n)) hstop
  have hrunning := (hstop.mono (s.monotone_start (Nat.le_succ n))).isStopped_eq
  exact RetryPolicy.attemptFrom_again hrunning (hop.eq (n + 1) world) hjudge (s.waits.next n)
    hmakes.counted fuel

/-- Attempts that settle nothing are made one after the other, and the next one goes on from the
world that they leave. -/
theorem attemptFrom_made (hop : s.Performed op) (hmakes : s.Makes last)
    (hstop : stop.Beyond (s.start last)) (hlast : n + count = last) (fuel : Nat) (world : σ) :
    (s.policy stop).attemptFrom op (fuel + count) (n + 1) (s.wait n) (s.start n) world =
      ((s.policy stop).attemptFrom op fuel (last + 1) (s.wait last) (s.start last)
        (worldAfter op (s.calls n count) world)).map (Retried.behind (s.calls n count)) := by
  induction count generalizing n world with
  | zero =>
    obtain rfl : n = last := hlast
    exact (map_behind_nil _).symm
  | succ count ih =>
    have hnext : s.start (n + 1) ≤ s.start last := s.monotone_start (by omega)
    have hstep := attemptFrom_unsettled hop (hmakes.mono (by omega)) (hstop.mono hnext)
      (fuel + count) world
    rw [ih (by omega), ← map_behind_cons, ← calls_succ] at hstep
    exact hstep

theorem retry_made (hop : s.Performed op) (hmakes : s.Makes n) (hstop : stop.Beyond (s.start n))
    (fuel : Nat) (world : σ) :
    (s.policy stop).retry (fuel + n) op world =
      ((s.policy stop).attemptFrom op fuel (n + 1) (s.wait n) (s.start n)
        (worldAfter op (s.calls 0 n) world)).map (Retried.behind (s.calls 0 n)) := by
  rw [retry_eq]
  exact attemptFrom_made hop hmakes hstop (Nat.zero_add n) fuel world

theorem retry_settled (hop : s.Performed op) (hmakes : s.Makes n)
    (hsettled : s.settled? n = some result) (hstop : stop.Beyond (s.ending n)) (hfuel : n < fuel)
    (world : σ) :
    (s.policy stop).retry fuel op world =
      .ok ⟨result, s.calls 0 (n + 1), s.ending n, worldAfter op (s.calls 0 (n + 1)) world⟩ := by
  obtain ⟨spare, rfl⟩ := Nat.exists_eq_add_of_le' hfuel
  have hstarts := hstop.mono (s.start_le_ending n)
  have hjudge : (s.policy stop).judge (n + 1) (s.wait n) (s.start n) (s.outcome (n + 1)) =
      .settled result (s.ending n) :=
    RetryPolicy.judge_settled (p := s.policy stop) (s.wait n) (s.start n) hsettled hstop
  rw [← Nat.succ_add_eq_add_succ, retry_made hop hmakes hstarts,
    RetryPolicy.attemptFrom_settled hstarts.isStopped_eq (hop.eq (n + 1) _) hjudge spare,
    s.calls_concat, worldAfter_concat]
  rfl

theorem retry_unsettled (hop : s.Performed op) (hmakes : s.Makes n)
    (hstop : stop.Beyond (s.start n)) (world : σ) :
    (s.policy stop).retry n op world = .error .endless := by
  have hmade := retry_made hop hmakes hstop 0 world
  rw [Nat.zero_add] at hmade
  exact hmade

/-- Where the last attempt that can be counted settles nothing either, there is none after it. -/
theorem retry_overrun (hop : s.Performed op) (hmakes : s.Makes n) (hnone : s.settled? n = none)
    (hend : n + 2 = UInt32.size) (hstop : stop.Beyond (s.start (n + 1))) (hfuel : n < fuel)
    (world : σ) :
    (s.policy stop).retry fuel op world = .error .undefined := by
  obtain ⟨spare, rfl⟩ := Nat.exists_eq_add_of_le' hfuel
  have hstarts := hstop.mono (s.monotone_start (Nat.le_succ n))
  have hjudge : (s.policy stop).judge (n + 1) (s.wait n) (s.start n) (s.outcome (n + 1)) =
      .again (s.start (n + 1)) :=
    RetryPolicy.judge_again (p := s.policy stop) (s.wait n) (s.start n) hnone hstop
  rw [← Nat.succ_add_eq_add_succ, retry_made hop hmakes hstarts,
    RetryPolicy.attemptFrom_overrun hstarts.isStopped_eq (hop.eq (n + 1) _) hjudge hend.ge spare]
  rfl

/-! ### How retrying comes out -/

theorem settled?_eq (s : Script α) (n : Nat) :
    s.settled? n =
      if (s.outcome (n + 1)).isFatal then
        if s.backoff.exhausted (n + 1) then some (.error (.reconnectFailed (n + 1))) else none
      else some (s.outcome (n + 1)).result := by
  rw [settled?, Attempt.isFatal]
  cases (s.outcome (n + 1)).result with
  | ok value => rfl
  | error fault =>
    cases hfatal : fault.isConnectionFatal <;> simp [RetryPolicy.settles?, hfatal]

theorem makes_of_fatal (hfatal : ∀ i < n, (s.outcome (i + 1)).isFatal)
    (hallows : s.backoff.Allows (n + 1)) : s.Makes n := by
  refine ⟨hallows.lt_size, fun i hi => ?_⟩
  have hanother : s.backoff.Allows (i + 1 + 1) := hallows.mono (Nat.succ_le_succ hi)
  rw [settled?_eq, if_pos (hfatal i hi), hanother.not_exhausted]
  rfl

/-- **How retrying comes out.** Unless it is stopped, retrying makes attempts up to the first that
succeeds or fails for good, if that many are allowed, and its result is that of this attempt, be it
the last allowed. If the limit comes first, it makes as many as the limit allows and then gives up.
It ends when the last attempt does, and with a clock that wakes sleepers in time the next attempt
starts when the wait after the last is over. Only where there is no limit, and every attempt that
can be counted fails in a way that another may mend, does it come to no result. -/
theorem retry_outcome (s : Script α) {op : Nat → σ → Attempt α × σ} (hop : s.Performed op)
    (world : σ) :
    (∀ n, (∀ i < n, (s.outcome (i + 1)).isFatal) → (s.outcome (n + 1)).isFatal = false →
      s.backoff.Allows (n + 1) → ∀ fuel, n < fuel → (s.policy .never).retry fuel op world =
        .ok ⟨(s.outcome (n + 1)).result, s.calls 0 (n + 1), s.ending n,
          worldAfter op (s.calls 0 (n + 1)) world⟩) ∧
    (∀ n, s.backoff.maxAttempts.toNat = n + 1 → (∀ i < n + 1, (s.outcome (i + 1)).isFatal) →
      ∀ fuel, n < fuel → (s.policy .never).retry fuel op world =
        .ok ⟨.error (.reconnectFailed (n + 1)), s.calls 0 (n + 1), s.ending n,
          worldAfter op (s.calls 0 (n + 1)) world⟩) ∧
    (s.backoff.maxAttempts = 0 → (∀ n, n + 1 < UInt32.size → (s.outcome (n + 1)).isFatal) →
      ∀ fuel, UInt32.size ≤ fuel + 1 →
        (s.policy .never).retry fuel op world = .error .undefined) ∧
    (s.clock = .exact → ∀ n, s.start (n + 1) = (s.ending n).after (s.wait n)) := by
  refine ⟨fun n hfatal hlasting hallows fuel hfuel => ?_, fun n hmax hfatal fuel hfuel => ?_,
    fun hunlimited hfatal fuel hfuel => ?_, fun hclock n => ?_⟩
  · have hsettled : s.settled? n = some (s.outcome (n + 1)).result := by
      rw [settled?_eq, hlasting]
      rfl
    have hmakes := makes_of_fatal hfatal hallows
    exact retry_settled hop hmakes hsettled (StopSignal.beyond_never _) hfuel world
  · have hlimited : s.backoff.maxAttempts ≠ 0 := by
      intro hzero
      rw [hzero] at hmax
      cases hmax
    have hexhausted : s.backoff.exhausted (n + 1) = true := by
      simp [Backoff.exhausted, hlimited, hmax]
    have hsettled : s.settled? n = some (.error (.reconnectFailed (n + 1))) := by
      rw [settled?_eq, if_pos (hfatal n (Nat.lt_succ_self n)), if_pos hexhausted]
    have hmakes := makes_of_fatal (fun i hi => hfatal i (Nat.lt_succ_of_lt hi))
      (Backoff.allows_of_le hmax.ge)
    exact retry_settled hop hmakes hsettled (StopSignal.beyond_never _) hfuel world
  · obtain ⟨n, hn⟩ : ∃ n, n + 2 = UInt32.size := ⟨UInt32.size - 2, rfl⟩
    have hallows : s.backoff.Allows (n + 1) := by
      rw [Backoff.Allows, if_pos hunlimited]
      omega
    have hmakes := makes_of_fatal (fun i hi => hfatal i (by omega)) hallows
    have hnone : s.settled? n = none := by
      rw [settled?_eq, if_pos (hfatal n (by omega))]
      simp [Backoff.exhausted, hunlimited]
    exact retry_overrun hop hmakes hnone hn (StopSignal.beyond_never _) (by omega) world
  · rw [start_succ, hclock, Clock.wake_exact]

end Script

namespace Sample

def doubling : Nat → Duration
  | 0 => .ofSeconds 1
  | 1 => .ofSeconds 2
  | 2 => .ofSeconds 4
  | 3 => .ofSeconds 8
  | _ + 4 => .ofSeconds 10

theorem waits_doubling (maxAttempts : UInt32) :
    Backoff.Waits { Backoff.standard with maxAttempts := maxAttempts } doubling where
  first := rfl
  next n := by
    have hnext : ∀ n ≤ 4, Backoff.standard.next? (doubling n) = some (doubling (n + 1)) := by
      decide +kernel
    match n with
    | 0 | 1 | 2 | 3 => exact hnext _ (by decide)
    | _ + 4 => exact hnext 4 (by decide)

/-- Two attempts of half a second that fail, and a third, the last allowed, that is denied. -/
def deniedAtLast : Script Unit where
  backoff := { Backoff.standard with maxAttempts := 3 }
  clock := .milliseconds
  wait := doubling
  waits := waits_doubling 3
  outcome
    | 3 => ⟨.zero, .error (.server "denied")⟩
    | _ => ⟨.ofMilliseconds 500, .error .disconnected⟩

/-- Goes as a script says, and writes down the numbers of the attempts. -/
def noting (s : Script Unit) (number : Nat) (world : List Nat) : Attempt Unit × List Nat :=
  (s.outcome number, world ++ [number])

/-- The denial is the result, and not that the attempts are used up. -/
theorem retry_outcome_at_limit :
    deniedAtLast.Performed (noting deniedAtLast) ∧
      (deniedAtLast.policy .never).retry 3 (noting deniedAtLast) [] =
        .ok ⟨.error (.server "denied"), [(1, 0), (2, 1500000000), (3, 4000000000)], 4000000000,
          [1, 2, 3]⟩ := by
  have hperformed : deniedAtLast.Performed (noting deniedAtLast) := fun _ _ => rfl
  have hcalls : deniedAtLast.calls 0 3 = [(1, 0), (2, 1500000000), (3, 4000000000)] := by
    decide +kernel
  have hending : deniedAtLast.ending 2 = 4000000000 := by decide +kernel
  have hallows : deniedAtLast.backoff.Allows 3 := Backoff.allows_of_le (by decide)
  have hrun := (Script.retry_outcome deniedAtLast hperformed []).1 2 (by decide) rfl hallows 3
    (by decide)
  rw [hcalls, hending] at hrun
  exact ⟨hperformed, hrun⟩

end Sample

end Session

end SeisFeed
