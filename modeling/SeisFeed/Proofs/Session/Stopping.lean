import SeisFeed.Proofs.Session.Timetable
import Mathlib.Data.Nat.Find
/-!
# Stopping a retry

A stop that comes at a moment at which nothing begins or ends cuts a run of attempts short there and
changes nothing before it. The run without a stop and the one with it go the same way as long as the
moment has not come; when it comes, an attempt or a wait is under way, and that is the end.
-/

namespace SeisFeed

open Time (Backoff Clock Duration Moment StopSignal)

namespace Session.Script

variable {α σ : Type} {s : Script α} {op : Nat → σ → Attempt α × σ} {T : Moment}
  {n count last : Nat}

/-- Nothing begins or ends at a moment: of the attempts made none starts or ends there, and no wait
after one of them ends there. -/
structure Quiet (s : Script α) (T : Moment) : Prop where
  start : ∀ n, s.Makes n → s.start n ≠ T
  ending : ∀ n, s.Makes n → s.ending n ≠ T
  wait : ∀ n, s.Makes n → s.settled? n = none → s.start (n + 1) ≠ T

/-- The calls that start before a moment. -/
def before (T : Moment) (calls : List (Nat × Moment)) : List (Nat × Moment) :=
  calls.filter fun call => call.2 < T

/-- What a run comes to that is stopped at a moment, after some calls. -/
def cutAt (T : Moment) (op : Nat → σ → Attempt α × σ) (calls : List (Nat × Moment)) (world : σ) :
    Retried α σ :=
  ⟨.error .stopped, before T calls, T, worldAfter op (before T calls) world⟩

/-! ### The attempt or the wait that is cut short -/

theorem before_calls_of_le (h : T ≤ s.start n) (count : Nat) : before T (s.calls n count) = [] := by
  rw [before, List.filter_eq_nil_iff]
  intro call hcall
  obtain ⟨i, hi, rfl⟩ := List.mem_map.1 hcall
  have hlater := s.monotone_start (List.mem_range'_1.1 hi).1
  simpa using Nat.le_trans h hlater

theorem before_calls_succ (h : s.start n < T) (count : Nat) :
    before T (s.calls n (count + 1)) = (n + 1, s.start n) :: before T (s.calls (n + 1) count) := by
  rw [calls_succ, before, List.filter_cons_of_pos (by simpa using h), before]

theorem cutAt_calls (op : Nat → σ → Attempt α × σ) (hstart : s.start n < T)
    (hnext : T ≤ s.start (n + 1)) (count : Nat) (world : σ) :
    cutAt T op (s.calls n (count + 1)) world =
      ⟨.error .stopped, [(n + 1, s.start n)], T, (op (n + 1) world).2⟩ := by
  rw [cutAt, before_calls_succ hstart, before_calls_of_le hnext]
  rfl

/-- The moment comes while an attempt is under way, or during the wait after it. -/
def Falls (s : Script α) (T : Moment) (n : Nat) : Prop :=
  T < s.ending n ∨ s.settled? n = none ∧ s.ending n < T ∧ T < s.start (n + 1)

theorem Falls.le_start (h : s.Falls T n) : T ≤ s.start (n + 1) := by
  rcases h with hcut | ⟨-, -, hcut⟩
  · exact Nat.le_trans (Nat.le_of_lt hcut) (s.ending_le_start n)
  · exact Nat.le_of_lt hcut

theorem Quiet.ending_lt (h : s.Quiet T) (hmakes : s.Makes n) (hended : ¬ T < s.ending n) :
    s.ending n < T :=
  Nat.lt_of_le_of_ne (Nat.le_of_not_lt hended) (h.ending n hmakes)

theorem Quiet.falls (h : s.Quiet T) (hmakes : s.Makes n)
    (hcomes : T < s.ending n ∨ s.settled? n = none ∧ T < s.start (n + 1)) : s.Falls T n := by
  by_cases hcut : T < s.ending n
  · exact .inl hcut
  · obtain ⟨hnone, hnext⟩ := hcomes.resolve_left hcut
    exact .inr ⟨hnone, h.ending_lt hmakes hcut, hnext⟩

theorem Quiet.start_lt (h : s.Quiet T) (hmakes : s.Makes n) (hnone : s.settled? n = none)
    (hfalls : ¬ s.Falls T n) : s.start (n + 1) < T :=
  Nat.lt_of_le_of_ne (Nat.le_of_not_lt fun hnext => hfalls (h.falls hmakes (.inr ⟨hnone, hnext⟩)))
    (h.wait n hmakes hnone)

theorem Falls.attemptFrom_eq (h : s.Falls T n) (hop : s.Performed op) (hstart : s.start n < T)
    (fuel : Nat) (world : σ) :
    (s.policy ⟨some T⟩).attemptFrom op (fuel + 1) (n + 1) (s.wait n) (s.start n) world =
      .ok ⟨.error .stopped, [(n + 1, s.start n)], T, (op (n + 1) world).2⟩ := by
  have hjudge : (s.policy ⟨some T⟩).judge (n + 1) (s.wait n) (s.start n) (s.outcome (n + 1)) =
      .settled (.error .stopped) T := RetryPolicy.judge_cut (p := s.policy ⟨some T⟩) rfl h
  exact RetryPolicy.attemptFrom_settled (StopSignal.beyond_at hstart).isStopped_eq
    (hop.eq (n + 1) world) hjudge fuel

/-! ### Runs -/

/-- Where the moment comes before the run without a stop is beyond an attempt and the wait after it,
the run with a stop is cut there. -/
theorem attemptFrom_cut (hop : s.Performed op) (hquiet : s.Quiet T) (hmakes : s.Makes last)
    (hcomes : T < s.ending last ∨ s.settled? last = none ∧ T < s.start (last + 1))
    (hstart : s.start n < T) (hlast : n + count = last) (spare : Nat) (world : σ) :
    (s.policy ⟨some T⟩).attemptFrom op (spare + (count + 1)) (n + 1) (s.wait n) (s.start n) world =
      .ok (cutAt T op (s.calls n (count + 1)) world) := by
  induction count generalizing n world with
  | zero =>
    obtain rfl : n = last := hlast
    have hfalls : s.Falls T n := hquiet.falls hmakes hcomes
    rw [cutAt_calls op hstart hfalls.le_start]
    exact hfalls.attemptFrom_eq hop hstart spare world
  | succ count ih =>
    by_cases hfalls : s.Falls T n
    · rw [cutAt_calls op hstart hfalls.le_start]
      exact hfalls.attemptFrom_eq hop hstart _ world
    have hnone : s.settled? n = none := hmakes.unsettled n (by omega)
    have hnext : s.start (n + 1) < T := hquiet.start_lt (hmakes.mono (by omega)) hnone hfalls
    have hstep := attemptFrom_unsettled hop (hmakes.mono (by omega)) (StopSignal.beyond_at hnext)
      (spare + (count + 1)) world
    rw [ih hnext (by omega)] at hstep
    rw [cutAt, before_calls_succ hstart]
    exact hstep

theorem retry_cut (hop : s.Performed op) (hquiet : s.Quiet T) (hmakes : s.Makes n)
    (hcomes : T < s.ending n ∨ s.settled? n = none ∧ T < s.start (n + 1)) {fuel : Nat}
    (hfuel : n < fuel) (world : σ) :
    (s.policy ⟨some T⟩).retry fuel op world = .ok (cutAt T op (s.calls 0 (n + 1)) world) := by
  obtain ⟨spare, rfl⟩ := Nat.exists_eq_add_of_le' hfuel
  have hstart : s.start 0 < T := Nat.pos_of_ne_zero (hquiet.start 0 s.makes_zero).symm
  rw [retry_eq]
  exact attemptFrom_cut hop hquiet hmakes hcomes hstart (Nat.zero_add n) spare world

/-- None of the attempts that can be counted settles anything. -/
def Unsettled (s : Script α) : Prop :=
  ∀ n, n + 1 < UInt32.size → s.settled? n = none

theorem Unsettled.makes (h : s.Unsettled) (hcount : n + 1 < UInt32.size) : s.Makes n :=
  ⟨hcount, fun i hi => h i (Nat.lt_trans (Nat.succ_lt_succ hi) hcount)⟩

/-- The run without a stop ends with the first attempt that settles something, if there is one. -/
theorem settles_or_unsettled (s : Script α) :
    (∃ n result, s.Makes n ∧ s.settled? n = some result) ∨ s.Unsettled := by
  by_cases hall : s.Unsettled
  · exact .inr hall
  · classical
    have hsome : ∃ n, n + 1 < UInt32.size ∧ s.settled? n ≠ none := by
      simpa [Unsettled] using hall
    obtain ⟨hcount, hfirst⟩ := Nat.find_spec hsome
    obtain ⟨result, hresult⟩ := Option.ne_none_iff_exists'.1 hfirst
    have hbefore : ∀ i < Nat.find hsome, s.settled? i = none := fun i hi =>
      not_not.1 fun h => Nat.find_min hsome hi ⟨Nat.lt_trans (Nat.succ_lt_succ hi) hcount, h⟩
    exact .inl ⟨_, result, ⟨hcount, hbefore⟩, hresult⟩

theorem Unsettled.retry_eq (h : s.Unsettled) (hop : s.Performed op) {stop : StopSignal}
    (hstop : ∀ n, n + 1 < UInt32.size → stop.Beyond (s.start (n + 1))) (fuel : Nat) (world : σ) :
    (s.policy stop).retry fuel op world =
      .error (if fuel + 1 < UInt32.size then .endless else .undefined) := by
  split
  · next hfuel =>
    have hbeyond := (hstop fuel hfuel).mono (s.monotone_start (Nat.le_succ fuel))
    exact retry_unsettled hop (h.makes hfuel) hbeyond world
  · next hfuel =>
    obtain ⟨last, hlast⟩ : ∃ last, last + 2 = UInt32.size := ⟨UInt32.size - 2, rfl⟩
    have hcount : last + 1 < UInt32.size := by omega
    exact retry_overrun hop (h.makes hcount) (h last hcount) hlast (hstop last hcount) (by omega)
      world

theorem of_retry (hop : s.Performed op) {fuel : Nat} {world : σ} {run : Retried α σ}
    (h : (s.policy .never).retry fuel op world = .ok run) :
    ∃ n result, s.Makes n ∧ s.settled? n = some result ∧ n < fuel ∧
      run = ⟨result, s.calls 0 (n + 1), s.ending n, worldAfter op (s.calls 0 (n + 1)) world⟩ := by
  rcases s.settles_or_unsettled with ⟨n, result, hmakes, hsettled⟩ | hunsettled
  · have hfuel : n < fuel := by
      refine Nat.lt_of_not_le fun hle => ?_
      rw [retry_unsettled hop (hmakes.mono hle) (StopSignal.beyond_never _)] at h
      cases h
    rw [retry_settled hop hmakes hsettled (StopSignal.beyond_never _) hfuel] at h
    exact ⟨n, result, hmakes, hsettled, hfuel, (Except.ok.inj h).symm⟩
  · rw [hunsettled.retry_eq hop fun _ _ => StopSignal.beyond_never _] at h
    cases h

theorem unsettled_of_retry (hop : s.Performed op) {world : σ}
    (h : ∀ fuel run, (s.policy .never).retry fuel op world ≠ .ok run) : s.Unsettled := by
  rcases s.settles_or_unsettled with ⟨n, result, hmakes, hsettled⟩ | hunsettled
  · exact absurd (retry_settled hop hmakes hsettled (StopSignal.beyond_never _)
      (Nat.lt_succ_self n) world) (h (n + 1) _)
  · exact hunsettled

/-- **A stop only cuts a run short.** Let nothing of the run without a stop begin or end at a moment
`T`. Where that run ends before `T`, a stop then changes nothing of it; otherwise the run that is
stopped ends at `T`, after the calls that start before. Where the run without a stop comes to no
result, this is so as soon as one of its attempts or the wait after it goes on beyond `T`; if none
of them does, `T` never comes, and the run that is to be stopped there goes as the other. A stop
from the beginning on keeps the first attempt from being made. -/
theorem stop_cuts_short (s : Script α) {op : Nat → σ → Attempt α × σ} (hop : s.Performed op)
    (world : σ) :
    (∀ T, s.Quiet T →
      (∀ fuel run, (s.policy .never).retry fuel op world = .ok run →
        (run.finish < T → (s.policy ⟨some T⟩).retry fuel op world = .ok run) ∧
        (¬ run.finish < T →
          (s.policy ⟨some T⟩).retry fuel op world = .ok (cutAt T op run.calls world))) ∧
      ((∀ fuel run, (s.policy .never).retry fuel op world ≠ .ok run) →
        (∀ n, s.Makes n → T < s.start (n + 1) → ∀ fuel, n < fuel →
          (s.policy ⟨some T⟩).retry fuel op world =
            .ok (cutAt T op (s.calls 0 (n + 1)) world)) ∧
        ((∀ n, s.Makes n → s.start (n + 1) < T) → ∀ fuel,
          (s.policy ⟨some T⟩).retry fuel op world = (s.policy .never).retry fuel op world))) ∧
    ∀ fuel, (s.policy ⟨some 0⟩).retry (fuel + 1) op world =
      .ok ⟨.error .stopped, [], 0, world⟩ := by
  refine ⟨fun T hquiet => ⟨fun fuel run hrun => ?_, fun hresultless => ?_⟩, fun fuel => rfl⟩
  · obtain ⟨n, result, hmakes, hsettled, hfuel, rfl⟩ := of_retry hop hrun
    refine ⟨fun hbefore => ?_, fun hafter => ?_⟩
    · exact retry_settled hop hmakes hsettled (StopSignal.beyond_at hbefore) hfuel world
    · have hcomes : T < s.ending n :=
        Nat.lt_of_le_of_ne (Nat.le_of_not_lt hafter) (hquiet.ending n hmakes).symm
      exact retry_cut hop hquiet hmakes (.inl hcomes) hfuel world
  · have hunsettled := unsettled_of_retry hop hresultless
    refine ⟨fun n hmakes hcomes fuel hfuel => ?_, fun hnever fuel => ?_⟩
    · have hnone := hunsettled n hmakes.counted
      exact retry_cut hop hquiet hmakes (.inr ⟨hnone, hcomes⟩) hfuel world
    · rw [hunsettled.retry_eq hop fun _ _ => StopSignal.beyond_never _]
      refine hunsettled.retry_eq hop (fun n hcount => ?_) fuel world
      exact StopSignal.beyond_at (hnever n (hunsettled.makes hcount))

end Session.Script

namespace Session.Sample

theorem settled?_deniedAtLast :
    deniedAtLast.settled? 0 = none ∧ deniedAtLast.settled? 1 = none ∧
      deniedAtLast.settled? 2 = some (.error (.server "denied")) :=
  ⟨rfl, rfl, rfl⟩

/-- Stopped during the second wait, when the third attempt was to be denied. -/
theorem stop_cuts_short_in_wait :
    deniedAtLast.Performed (noting deniedAtLast) ∧ deniedAtLast.Quiet 2500000000 ∧
      ∃ run, (deniedAtLast.policy .never).retry 3 (noting deniedAtLast) [] = .ok run ∧
        run.finish = 4000000000 ∧
        (deniedAtLast.policy ⟨some 2500000000⟩).retry 3 (noting deniedAtLast) [] =
          .ok ⟨.error .stopped, [(1, 0), (2, 1500000000)], 2500000000, [1, 2]⟩ := by
  obtain ⟨hfirst, hsecond, hthird⟩ := settled?_deniedAtLast
  have hperformed : deniedAtLast.Performed (noting deniedAtLast) := fun _ _ => rfl
  have hmakes : deniedAtLast.Makes 2 := by
    refine ⟨by decide, fun i hi => ?_⟩
    match i with
    | 0 => exact hfirst
    | 1 => exact hsecond
  have hmade : ∀ n, deniedAtLast.Makes n → n ≤ 2 := by
    refine fun n hn => Nat.le_of_not_lt fun h => ?_
    have hnone := hn.unsettled 2 h
    rw [hthird] at hnone
    cases hnone
  have hmoments : ∀ n ≤ 2, deniedAtLast.start n ≠ 2500000000 ∧
      deniedAtLast.ending n ≠ 2500000000 ∧ deniedAtLast.start (n + 1) ≠ 2500000000 := by
    decide +kernel
  have hquiet : deniedAtLast.Quiet 2500000000 :=
    ⟨fun n hn => (hmoments n (hmade n hn)).1, fun n hn => (hmoments n (hmade n hn)).2.1,
      fun n hn _ => (hmoments n (hmade n hn)).2.2⟩
  have hrun := Script.retry_settled hperformed hmakes hthird (StopSignal.beyond_never _)
    (Nat.lt_succ_self 2) []
  have hfinish : deniedAtLast.ending 2 = 4000000000 := by decide +kernel
  have hstopped := (((Script.stop_cuts_short deniedAtLast hperformed []).1 2500000000 hquiet).1 3 _
    hrun).2 (by rw [hfinish]; decide)
  have hbefore : Script.before 2500000000 (deniedAtLast.calls 0 3) =
      [(1, 0), (2, 1500000000)] := by decide +kernel
  dsimp only [Script.cutAt] at hstopped
  rw [hbefore] at hstopped
  exact ⟨hperformed, hquiet, _, hrun, hfinish, hstopped⟩

end Session.Sample

end SeisFeed
