import SeisFeed.Proofs.Session.Timetable
/-!
# How long the pauses are

A schedule has a limit that the factor may not raise a wait above. It is applied where a wait is
computed from the last, so it holds for every wait but the first, which is taken as it is given. The
pauses of a run are the waits of its timetable in their order, rounded up to the clock; so all of
them keep to the limit where the first wait does, and otherwise the first is the one that does not.
-/

namespace SeisFeed

namespace Time

open Backoff

theorem Clock.wake_lt (c : Clock) (now : Moment) (d : Duration) :
    c.wake now d < now.after d + c.resolution := by
  have hle := Nat.div_mul_le_self (now.after d + (c.resolution - 1)) c.resolution
  have htick : c.resolution - 1 < c.resolution := Nat.sub_one_lt_of_lt c.positive
  exact Nat.lt_of_le_of_lt hle (Nat.add_lt_add_left htick _)

/-! ### Waits -/

theorem Backoff.next?_le {b : Backoff} {current delay : Duration}
    (h : b.next? current = some delay) : delay.nanoseconds ≤ b.max.nanoseconds := by
  obtain ⟨product, -, rfl⟩ := Option.map_eq_some_iff.1 h
  exact Nat.min_le_right _ _

theorem Backoff.Waits.succ_le {b : Backoff} {wait : Nat → Duration} (h : b.Waits wait) (n : Nat) :
    (wait (n + 1)).nanoseconds ≤ b.max.nanoseconds :=
  next?_le (h.next n)

theorem Backoff.Waits.le {b : Backoff} {wait : Nat → Duration} (h : b.Waits wait)
    (hinitial : b.initial.nanoseconds ≤ b.max.nanoseconds) (n : Nat) :
    (wait n).nanoseconds ≤ b.max.nanoseconds := by
  cases n with
  | zero => exact h.first ▸ hinitial
  | succ n => exact h.succ_le n

end Time

namespace Session

open Time (Backoff Clock Duration Moment StopSignal)

theorem RetryPolicy.start_of_judge {α : Type} {p : RetryPolicy} {number : Nat} {delay : Duration}
    {start next : Moment} {attempt : Attempt α}
    (h : p.judge number delay start attempt = .again next) :
    next = p.clock.wake (start.after attempt.duration) delay := by
  rw [judge_eq] at h
  split at h
  · cases h
  split at h
  · cases h
  split at h
  · cases h
  next hsleep =>
    cases h
    rw [StopSignal.sleep] at hsleep
    split at hsleep
    · cases hsleep
    split at hsleep
    · cases hsleep
    · cases hsleep
      rfl

namespace Script

variable {α σ : Type} {s : Script α} {op : Nat → σ → Attempt α × σ} {stop : StopSignal}
  {fuel n : Nat} {world : σ} {run : Retried α σ}

/-- How long it is from the end of the attempt after the first `n` to the start of the next. -/
def pause (s : Script α) (n : Nat) : Nat :=
  s.start (n + 1) - s.ending n

/-- How long it is from the end of each of some attempts to the start of the next of them. -/
def pauses (s : Script α) (calls : List (Nat × Moment)) : List Nat :=
  List.zipWith (fun (number, start) (_, next) => next - start.after (s.outcome number).duration)
    calls calls.tail

theorem wait_le_pause (s : Script α) (n : Nat) : (s.wait n).nanoseconds ≤ s.pause n :=
  Nat.le_sub_of_add_le' (s.clock.after_le_wake (s.ending n) (s.wait n))

theorem pause_lt (s : Script α) (n : Nat) :
    s.pause n < (s.wait n).nanoseconds + s.clock.resolution := by
  have hwake := s.clock.wake_lt (s.ending n) (s.wait n)
  rw [Moment.after, Nat.add_assoc] at hwake
  exact Nat.sub_lt_left_of_lt_add (s.ending_le_start n) hwake

theorem pauses_calls (s : Script α) (n count : Nat) :
    s.pauses (s.calls n count) = (List.range' n (count - 1)).map s.pause := by
  induction count generalizing n with
  | zero => rfl
  | succ count ih =>
    cases count with
    | zero => rfl
    | succ count =>
      have hrest := ih (n + 1)
      rw [calls_succ] at hrest
      rw [calls_succ, calls_succ, Nat.add_sub_cancel, List.range'_succ, List.map_cons]
      exact congrArg (s.pause n :: ·) hrest

/-- Whatever the stop signal, the attempts made are those of the timetable up to some place. -/
theorem calls_of_attemptFrom (hop : s.Performed op)
    (h : (s.policy stop).attemptFrom op fuel (n + 1) (s.wait n) (s.start n) world = .ok run) :
    ∃ count, run.calls = s.calls n count := by
  induction fuel generalizing n world run with
  | zero => cases h
  | succ fuel ih =>
    rw [RetryPolicy.attemptFrom, hop.eq] at h
    split at h
    · obtain rfl := Except.ok.inj h
      exact ⟨0, rfl⟩
    cases hjudge : (s.policy stop).judge (n + 1) (s.wait n) (s.start n) (s.outcome (n + 1)) with
    | settled result finish =>
      simp only [hjudge] at h
      obtain rfl := Except.ok.inj h
      exact ⟨1, rfl⟩
    | again next =>
      have hnext : next = s.start (n + 1) := RetryPolicy.start_of_judge hjudge
      have hdelay : (s.policy stop).backoff.next? (s.wait n) = some (s.wait (n + 1)) :=
        s.waits.next n
      cases hcount : countOn? (n + 1) with
      | none =>
        simp only [hjudge, hdelay, hcount] at h
        cases h
      | some number =>
        obtain rfl : number = n + 1 + 1 := eq_of_countOn? hcount
        simp only [hjudge, hdelay, hcount, hnext] at h
        obtain ⟨later, hlater, rfl⟩ := ok_of_map h
        obtain ⟨count, hcalls⟩ := ih hlater
        refine ⟨count + 1, ?_⟩
        rw [calls_succ, ← hcalls]
        rfl

/-- **The limit on pauses.** However the attempts of a run go and whenever it is stopped, they are
made at the moments of the timetable, whose waits are within the limit after the first. So the first
pause is the first wait as it is given, every later one is within the limit, and all of them are
where the first wait is; a clock adds less than a tick to each. -/
theorem pauses_within_limit (s : Script α) (hop : s.Performed op)
    (hrun : (s.policy stop).retry fuel op world = .ok run) :
    (∃ count, run.calls = s.calls 0 count) ∧
    (∀ n, (s.wait (n + 1)).nanoseconds ≤ s.backoff.max.nanoseconds) ∧
    (∀ pause ∈ (s.pauses run.calls).head?, s.backoff.initial.nanoseconds ≤ pause ∧
      pause < s.backoff.initial.nanoseconds + s.clock.resolution) ∧
    (∀ pause ∈ (s.pauses run.calls).tail,
      pause < s.backoff.max.nanoseconds + s.clock.resolution) ∧
    (s.backoff.initial.nanoseconds ≤ s.backoff.max.nanoseconds →
      ∀ pause ∈ s.pauses run.calls, pause < s.backoff.max.nanoseconds + s.clock.resolution) := by
  rw [retry_eq] at hrun
  obtain ⟨count, hcalls⟩ := calls_of_attemptFrom hop hrun
  have hbound : ∀ i, (s.wait i).nanoseconds ≤ s.backoff.max.nanoseconds →
      s.pause i < s.backoff.max.nanoseconds + s.clock.resolution := fun i hi =>
    Nat.lt_of_lt_of_le (s.pause_lt i) (Nat.add_le_add_right hi _)
  rw [hcalls, pauses_calls]
  refine ⟨⟨count, rfl⟩, s.waits.succ_le, fun pause hpause => ?_, fun pause hpause => ?_,
    fun hinitial pause hpause => ?_⟩
  · cases hcount : count - 1 with
    | zero => simp [hcount] at hpause
    | succ later =>
      rw [hcount, List.range'_succ] at hpause
      obtain rfl : s.pause 0 = pause := Option.some.inj hpause
      rw [← s.waits.first]
      exact ⟨s.wait_le_pause 0, s.pause_lt 0⟩
  · rw [← List.map_tail, List.tail_range'] at hpause
    obtain ⟨i, hi, rfl⟩ := List.mem_map.1 hpause
    obtain ⟨j, rfl⟩ := Nat.exists_eq_add_of_le' (List.mem_range'_1.1 hi).1
    exact hbound (j + 1) (s.waits.succ_le j)
  · obtain ⟨i, -, rfl⟩ := List.mem_map.1 hpause
    exact hbound i (s.waits.le hinitial i)

end Script

namespace Sample

/-- The pauses are of one and of two seconds. -/
theorem pauses_within_limit_doubling :
    ∃ run, (deniedAtLast.policy .never).retry 3 (noting deniedAtLast) [] = .ok run ∧
      deniedAtLast.pauses run.calls = [1000000000, 2000000000] ∧
      (deniedAtLast.backoff.initial.nanoseconds ≤ deniedAtLast.backoff.max.nanoseconds) ∧
      ∀ pause ∈ deniedAtLast.pauses run.calls, pause < 10000000000 + 1000000 := by
  have hperformed : deniedAtLast.Performed (noting deniedAtLast) := fun _ _ => rfl
  have hmakes : deniedAtLast.Makes 2 :=
    Script.makes_of_fatal (by decide) (Backoff.allows_of_le (by decide))
  have hsettled : deniedAtLast.settled? 2 = some (.error (.server "denied")) := rfl
  have hrun := Script.retry_settled hperformed hmakes hsettled (StopSignal.beyond_never _)
    (by decide : 2 < 3) []
  have hinitial : deniedAtLast.backoff.initial.nanoseconds ≤ deniedAtLast.backoff.max.nanoseconds :=
    by decide
  have hpauses : deniedAtLast.pauses (deniedAtLast.calls 0 3) = [1000000000, 2000000000] := by
    decide +kernel
  exact ⟨_, hrun, hpauses, hinitial,
    (Script.pauses_within_limit deniedAtLast hperformed hrun).2.2.2.2 hinitial⟩

/-- The standard schedule with a first wait above its limit, and two attempts. -/
def steep : Backoff :=
  { Backoff.standard with initial := .ofSeconds 20, maxAttempts := 2 }

def falling : Nat → Duration
  | 0 => .ofSeconds 20
  | _ + 1 => .ofSeconds 10

theorem waits_falling : steep.Waits falling where
  first := rfl
  next n := by
    have hnext : ∀ n ≤ 1, steep.next? (falling n) = some (falling (n + 1)) := by
      decide +kernel
    match n with
    | 0 => exact hnext 0 (by decide)
    | _ + 1 => exact hnext 1 (by decide)

/-- Two attempts that take no time: one that fails and one that succeeds. -/
def steepRetry : Script Nat where
  backoff := steep
  clock := .milliseconds
  wait := falling
  waits := waits_falling
  outcome
    | 2 => ⟨.zero, .ok 1⟩
    | _ => ⟨.zero, .error .disconnected⟩

/-- Goes as a script says, in a world without anything in it. -/
def acting (s : Script Nat) (number : Nat) (world : Unit) : Attempt Nat × Unit :=
  (s.outcome number, world)

/-- The second attempt waits for twenty seconds. -/
theorem first_pause_above_limit :
    ∃ run, (steepRetry.policy .never).retry 2 (acting steepRetry) () = .ok run ∧
      run.result = .ok 1 ∧ run.calls = [(1, 0), (2, 20000000000)] ∧
      steepRetry.pauses run.calls = [20000000000] ∧
      steepRetry.backoff.max.nanoseconds = 10000000000 := by
  have hperformed : steepRetry.Performed (acting steepRetry) := fun _ _ => rfl
  have hmakes : steepRetry.Makes 1 :=
    Script.makes_of_fatal (by decide) (Backoff.allows_of_le (by decide))
  have hsettled : steepRetry.settled? 1 = some (.ok 1) := rfl
  have hrun := Script.retry_settled hperformed hmakes hsettled (StopSignal.beyond_never _)
    (by decide : 1 < 2) ()
  exact ⟨_, hrun, rfl, by decide +kernel, by decide +kernel, rfl⟩

end Sample

end Session

end SeisFeed
