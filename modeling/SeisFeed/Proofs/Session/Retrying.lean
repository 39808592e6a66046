import SeisFeed.Proofs.Session.Progress
import SeisFeed.Session.Network
/-!
# Retrying until an attempt succeeds

What follows an attempt depends on what it settles and on when the signal fires; `judge_eq` says
how, and the rest is told from it. With a signal that never fires, attempts that fail in ways
another attempt may mend come to nothing but the world they leave, as long as one more is allowed
and the waits between them are defined. And whatever the signal, a success is the success of some
attempt.
-/

namespace SeisFeed

namespace Time

/-! ### Clocks and signals -/

theorem Moment.le_after (now : Moment) (d : Duration) : now ≤ now.after d :=
  Nat.le_add_right now d.nanoseconds

theorem Clock.after_le_wake (c : Clock) (now : Moment) (d : Duration) :
    now.after d ≤ c.wake now d := by
  have hless : (now.after d + (c.resolution - 1)) % c.resolution ≤ c.resolution - 1 :=
    Nat.le_sub_one_of_lt (Nat.mod_lt _ c.positive)
  have hparts := Nat.div_add_mod' (now.after d + (c.resolution - 1)) c.resolution
  exact Nat.le_of_add_le_add_right (hparts ▸ Nat.add_le_add_left hless _)

theorem Clock.wake_exact (now : Moment) (d : Duration) : exact.wake now d = now.after d := by
  rw [wake, exact, Nat.div_one, Nat.mul_one]
  rfl

/-- A signal fires after a moment, if ever. -/
def StopSignal.Beyond (s : StopSignal) (now : Moment) : Prop :=
  ∀ moment, s.firesAt = some moment → now < moment

namespace StopSignal

variable {s : StopSignal} {now later moment : Moment}

theorem beyond_never (now : Moment) : never.Beyond now :=
  nofun

theorem beyond_at (h : now < moment) : Beyond ⟨some moment⟩ now := by
  rintro _ ⟨⟩
  exact h

theorem Beyond.mono (h : s.Beyond later) (hle : now ≤ later) : s.Beyond now :=
  fun moment hmoment => Nat.lt_of_le_of_lt hle (h moment hmoment)

theorem Beyond.isStopped_eq (h : s.Beyond now) : s.isStopped now = false := by
  obtain ⟨_ | moment⟩ := s
  · rfl
  · simpa [isStopped] using h moment rfl

theorem Beyond.cuts?_eq (h : s.Beyond now) : s.cuts? now = none := by
  obtain ⟨_ | moment⟩ := s
  · rfl
  · simpa [cuts?] using Nat.le_of_lt (h moment rfl)

theorem cuts?_at (h : moment < later) : cuts? ⟨some moment⟩ later = some moment := by
  simp [cuts?, h]

theorem sleep_at {clock : Clock} {d : Duration} (hnow : now < moment)
    (hwake : moment < clock.wake now d) : sleep ⟨some moment⟩ clock now d = .stopped moment := by
  rw [sleep, (beyond_at hnow).isStopped_eq, cuts?_at hwake]
  rfl

theorem Beyond.sleep_eq {clock : Clock} {d : Duration} (h : s.Beyond (clock.wake now d)) :
    s.sleep clock now d = .rested (clock.wake now d) := by
  have hnow : now ≤ clock.wake now d := Nat.le_trans (now.le_after d) (clock.after_le_wake now d)
  rw [sleep, (h.mono hnow).isStopped_eq, h.cuts?_eq]
  rfl

end StopSignal

/-! ### Numbers of attempts -/

namespace Backoff

variable {b : Backoff} {number i : Nat}

/-- An attempt of a number may be made: it is within the limit, and where there is no limit it can
be counted. -/
def Allows (b : Backoff) (number : Nat) : Prop :=
  if b.maxAttempts = 0 then number < UInt32.size else number ≤ b.maxAttempts.toNat

theorem allows_of_le (h : number ≤ b.maxAttempts.toNat) : b.Allows number := by
  rw [Allows]
  split
  · exact Nat.lt_of_le_of_lt h b.maxAttempts.toNat_lt_size
  · exact h

theorem Allows.mono (h : b.Allows number) (hle : i ≤ number) : b.Allows i := by
  rw [Allows] at h ⊢
  split at h
  · next hunlimited =>
    rw [if_pos hunlimited]
    exact Nat.lt_of_le_of_lt hle h
  · next hlimited =>
    rw [if_neg hlimited]
    exact Nat.le_trans hle h

theorem Allows.lt_size (h : b.Allows number) : number < UInt32.size := by
  rw [Allows] at h
  split at h
  · exact h
  · exact Nat.lt_of_le_of_lt h b.maxAttempts.toNat_lt_size

theorem Allows.not_exhausted (h : b.Allows (number + 1)) : b.exhausted number = false := by
  rw [Allows] at h
  rw [exhausted]
  split at h
  · next hunlimited => simp [hunlimited]
  · simpa using fun _ => Nat.lt_of_succ_le h

end Backoff

end Time

namespace Session

open Time (Backoff Duration Moment StopSignal)

theorem countOn?_eq {count : Nat} (h : count + 1 < UInt32.size) :
    countOn? count = some (count + 1) :=
  if_pos h

theorem countOn?_eq_none {count : Nat} (h : UInt32.size ≤ count + 1) : countOn? count = none :=
  if_neg (Nat.not_lt.2 h)

theorem eq_of_countOn? {count next : Nat} (h : countOn? count = some next) : next = count + 1 := by
  rw [countOn?] at h
  split at h
  · exact (Option.some.inj h).symm
  · cases h

namespace RetryPolicy

variable {α σ : Type} {p : RetryPolicy} {op : Nat → σ → Attempt α × σ}

/-! ### One attempt -/

/-- What the attempt of a number settles: nothing, if it failed in a way that another may mend and
another may be made. -/
def settles? (b : Backoff) (number : Nat) : Except SessionFault α → Option (Except SessionFault α)
  | .ok value => some (.ok value)
  | .error fault =>
    if !fault.isConnectionFatal then some (.error fault)
    else if b.exhausted number then some (.error (.reconnectFailed number))
    else none

section

variable {attempt : Attempt α} {result : Except SessionFault α} {number : Nat} {delay : Duration}
  {start : Moment}

theorem settles?_fatal {b : Backoff} {fault : SessionFault}
    (hfatal : fault.isConnectionFatal = true) (hlimit : b.exhausted number = false) :
    settles? (α := α) b number (.error fault) = none := by
  simp only [settles?, hfatal, hlimit, Bool.not_true, Bool.false_eq_true, if_false]

theorem judge_eq (p : RetryPolicy) (number : Nat) (delay : Duration) (start : Moment)
    (attempt : Attempt α) :
    p.judge number delay start attempt =
      match p.stop.cuts? (start.after attempt.duration) with
      | some moment => .settled (.error .stopped) moment
      | none =>
        match settles? p.backoff number attempt.result with
        | some result => .settled result (start.after attempt.duration)
        | none =>
          match p.stop.sleep p.clock (start.after attempt.duration) delay with
          | .stopped moment => .settled (.error .stopped) moment
          | .rested moment => .again moment := by
  rw [judge]
  cases p.stop.cuts? (start.after attempt.duration) with
  | some moment => rfl
  | none =>
    cases attempt.result with
    | ok value => rfl
    | error fault =>
      dsimp only [settles?]
      cases !fault.isConnectionFatal
      · cases p.backoff.exhausted number <;> rfl
      · rfl

theorem judge_settled (delay : Duration) (start : Moment)
    (hresult : settles? p.backoff number attempt.result = some result)
    (hstop : p.stop.Beyond (start.after attempt.duration)) :
    p.judge number delay start attempt = .settled result (start.after attempt.duration) := by
  rw [judge_eq, hstop.cuts?_eq, hresult]

theorem judge_again (delay : Duration) (start : Moment)
    (hresult : settles? p.backoff number attempt.result = none)
    (hstop : p.stop.Beyond (p.clock.wake (start.after attempt.duration) delay)) :
    p.judge number delay start attempt =
      .again (p.clock.wake (start.after attempt.duration) delay) := by
  have hdone := hstop.mono (p.clock.after_le_wake (start.after attempt.duration) delay)
  rw [judge_eq, (hdone.mono (Moment.le_after _ delay)).cuts?_eq, hresult]
  simp only [hstop.sleep_eq]

/-- A stop that comes during an attempt, or during the wait after one that settles nothing, ends
the retrying there. -/
theorem judge_cut {moment : Moment} (hstop : p.stop = ⟨some moment⟩)
    (hcut : moment < start.after attempt.duration ∨
      settles? p.backoff number attempt.result = none ∧ start.after attempt.duration < moment ∧
        moment < p.clock.wake (start.after attempt.duration) delay) :
    p.judge number delay start attempt = .settled (.error .stopped) moment := by
  rw [judge_eq, hstop]
  rcases hcut with hcut | ⟨hnone, hended, hcut⟩
  · rw [StopSignal.cuts?_at hcut]
  · rw [(StopSignal.beyond_at hended).cuts?_eq, hnone]
    simp only [StopSignal.sleep_at hended hcut]

end

theorem result_of_judge {attempt : Attempt α} {value : α} {number : Nat} {delay : Duration}
    {start finish : Moment} (h : p.judge number delay start attempt = .settled (.ok value) finish) :
    attempt.result = .ok value := by
  rw [judge] at h
  split at h
  · cases h
  split at h
  · next hresult =>
    cases h
    exact hresult
  split at h
  · cases h
  split at h
  · cases h
  split at h
  · cases h
  · cases h

/-! ### Many attempts -/

section

variable {number : Nat} {delay : Duration} {now : Moment} {world world' : σ} {attempt : Attempt α}

theorem attemptFrom_settled {result : Except SessionFault α} {finish : Moment}
    (hrunning : p.stop.isStopped now = false) (hop : op number world = (attempt, world'))
    (hjudge : p.judge number delay now attempt = .settled result finish) (fuel : Nat) :
    p.attemptFrom op (fuel + 1) number delay now world =
      .ok ⟨result, [(number, now)], finish, world'⟩ := by
  rw [attemptFrom, hrunning, hop]
  simp only [hjudge]
  rfl

theorem attemptFrom_again {start : Moment} {delay' : Duration}
    (hrunning : p.stop.isStopped now = false) (hop : op number world = (attempt, world'))
    (hjudge : p.judge number delay now attempt = .again start)
    (hnext : p.backoff.next? delay = some delay') (hcount : number + 1 < UInt32.size)
    (fuel : Nat) :
    p.attemptFrom op (fuel + 1) number delay now world =
      (p.attemptFrom op fuel (number + 1) delay' start world').map (Retried.after number now) := by
  rw [attemptFrom, hrunning, hop]
  simp only [hjudge, hnext, countOn?_eq hcount]
  rfl

theorem attemptFrom_overrun {start : Moment} (hrunning : p.stop.isStopped now = false)
    (hop : op number world = (attempt, world'))
    (hjudge : p.judge number delay now attempt = .again start)
    (hcount : UInt32.size ≤ number + 1) (fuel : Nat) :
    p.attemptFrom op (fuel + 1) number delay now world = .error .undefined := by
  rw [attemptFrom, hrunning, hop]
  simp only [hjudge, countOn?_eq_none hcount]
  cases p.backoff.next? delay <;> rfl

end

/-- Attempts that fail one after the other, from the attempt of a number on, and the world that they
leave. -/
inductive Fails (op : Nat → σ → Attempt α × σ) : Nat → Nat → σ → σ → Prop where
  | none {number : Nat} {world : σ} : Fails op number 0 world world
  | more {number count : Nat} {world world' world'' : σ} {attempt : Attempt α}
      {fault : SessionFault} (hop : op number world = (attempt, world'))
      (hresult : attempt.result = .error fault) (hfatal : fault.isConnectionFatal = true)
      (hrest : Fails op (number + 1) count world' world'') :
      Fails op number (count + 1) world world''

theorem attemptFrom_of_fails {number count fuel : Nat} {delay : Duration} {world world' : σ}
    {value : α} (hstop : p.stop = .never) (hfails : Fails op number count world world')
    (hvalue : (op (number + count) world').1.result = .ok value)
    (hallows : p.backoff.Allows (number + count))
    (hdelays : (p.backoff.delays? delay count).isSome) (hfuel : count < fuel) (now : Moment) :
    ∃ run, p.attemptFrom op fuel number delay now world = .ok run ∧ run.result = .ok value ∧
      run.world = (op (number + count) world').2 := by
  have hbeyond : ∀ now, p.stop.Beyond now := by
    rw [hstop]
    exact StopSignal.beyond_never
  -- a failure uses up one unit of fuel, one number below the limit and one delay
  induction hfails generalizing fuel delay now with
  | @none number world =>
    obtain ⟨fuel, rfl⟩ := Nat.exists_eq_add_one_of_ne_zero (Nat.ne_of_gt hfuel)
    have hsettled : settles? p.backoff number (op number world).1.result = some (.ok value) := by
      rw [← Nat.add_zero number, hvalue]
      rfl
    have hjudge := judge_settled delay now hsettled (hbeyond _)
    exact ⟨_, attemptFrom_settled (hbeyond now).isStopped_eq rfl hjudge fuel, rfl, rfl⟩
  | @more number count world world' _ attempt fault hop hresult hfatal hrest ih =>
    obtain ⟨fuel, rfl⟩ := Nat.exists_eq_add_one_of_ne_zero (Nat.ne_zero_of_lt hfuel)
    rw [← Nat.succ_add_eq_add_succ number count] at hvalue hallows ⊢
    have hanother : p.backoff.Allows (number + 1) := hallows.mono (Nat.le_add_right _ _)
    have hunsettled : settles? p.backoff number attempt.result = none := by
      rw [hresult]
      exact settles?_fatal hfatal hanother.not_exhausted
    have hjudge := judge_again delay now hunsettled (hbeyond _)
    obtain ⟨delays, hdelays⟩ := Option.isSome_iff_exists.1 hdelays
    rw [Backoff.delays?] at hdelays
    obtain ⟨delay', hnext, hdelays⟩ := Option.bind_eq_some_iff.1 hdelays
    obtain ⟨delays', hdelays, -⟩ := Option.bind_eq_some_iff.1 hdelays
    obtain ⟨run, hrun, hresult, hworld⟩ := ih hvalue hallows (Option.isSome_of_eq_some hdelays)
      (Nat.lt_of_succ_lt_succ hfuel) _
    refine ⟨run.after number now, ?_, hresult, hworld⟩
    rw [attemptFrom_again (hbeyond now).isStopped_eq hop hjudge hnext hanother.lt_size fuel, hrun]
    rfl

/-- A success is that of the last attempt, which left the world as it is in the end. -/
theorem attempt_of_attemptFrom {fuel number : Nat} {delay : Duration} {now : Moment} {world : σ}
    {run : Retried α σ} {value : α} (h : p.attemptFrom op fuel number delay now world = .ok run)
    (hresult : run.result = .ok value) :
    ∃ last world', (op last world').1.result = .ok value ∧ (op last world').2 = run.world := by
  induction fuel generalizing number delay now world run with
  | zero => cases h
  | succ fuel ih =>
    rw [attemptFrom] at h
    split at h
    · obtain rfl := Except.ok.inj h
      cases hresult
    cases hop : op number world with
    | mk attempt world' =>
      rw [hop] at h
      cases hjudge : p.judge number delay now attempt with
      | settled result finish =>
        simp only [hjudge] at h
        obtain rfl := Except.ok.inj h
        obtain rfl : result = .ok value := hresult
        refine ⟨number, world, ?_, ?_⟩
        · rw [hop]
          exact result_of_judge hjudge
        · rw [hop]
      | again start =>
        simp only [hjudge] at h
        split at h
        · obtain ⟨later, hlater, rfl⟩ := ok_of_map h
          have hlast := ih hlater hresult
          exact hlast
        · cases h

end RetryPolicy

namespace Network

theorem connectWithRetry_of_server {n : Network} {incoming : Incoming}
    {coming : List (Except SessionFault Incoming)} (settings : ClientSettings)
    (hcoming : n.coming = .ok incoming :: coming) :
    n.connectWithRetry settings false =
      .ok (.ok (Link.opened incoming settings.readTimeout), { n with coming := coming }) := by
  have hconnect : n.connect settings.readTimeout =
      (.ok (Link.opened incoming settings.readTimeout), { n with coming := coming }) := by
    rw [connect, hcoming]
  let op (_ : Nat) (n : Network) : Attempt Link × Network :=
    (⟨.zero, (n.connect settings.readTimeout).1⟩, (n.connect settings.readTimeout).2)
  have hop : op 1 n =
      (⟨.zero, .ok (Link.opened incoming settings.readTimeout)⟩, { n with coming := coming }) := by
    simp only [op, hconnect]
  have hrun := RetryPolicy.attemptFrom_settled (p := policy settings.backoff false) rfl hop
    (RetryPolicy.judge_settled settings.backoff.initial 0 rfl (StopSignal.beyond_never _))
    (n.coming.length + settings.backoff.maxAttempts.toNat)
  exact congrArg (Except.map fun run => (run.result, run.world)) hrun

theorem opened_of_connectWithRetry {settings : ClientSettings} {stopped : Bool}
    {n n' : Network} {link : Link} (h : n.connectWithRetry settings stopped = .ok (.ok link, n')) :
    ∃ incoming, link = Link.opened incoming settings.readTimeout := by
  obtain ⟨run, hrun, hresult⟩ := ok_of_map h
  obtain ⟨_, world, hlast, -⟩ :=
    RetryPolicy.attempt_of_attemptFrom hrun (Prod.mk.inj hresult).1
  rw [connect] at hlast
  dsimp only at hlast
  split at hlast
  · cases hlast
  · cases hlast
  · next incoming _ _ => exact ⟨incoming, (Except.ok.inj hlast).symm⟩

end Network

end Session

end SeisFeed
