import Mathlib.Data.List.Infix
import Mathlib.Data.List.Perm.Subperm
import SeisFeed.Proofs.Delivery.Arrivals
/-!
# Shuffled runs

As long as not more numbers of a run than a reorder buffer holds have overtaken the first that is
missing, the buffer gives up no gap: at every moment it has released the numbers in front of the
first that is missing, each by the record that arrived first, and the others that have arrived wait.
`Caught` says this of a buffer that has come to number `m`; `push_repeat` and `push_new` say that an
arrival keeps it.
-/

namespace SeisFeed.Delivery.ReorderBuffer

open Waveform (Record)

variable {first : Int32} {n capacity i j m : Nat} {arrivals : List Record} {r : Record}

/-! ### What waits -/

/-- The items that wait when number `m` has been released: the first arrivals of all numbers beyond
it that have arrived. -/
structure Awaits (first : Int32) (n : Nat) (arrivals : List Record) (m : Nat)
    (ws : List (Int64 × Record)) : Prop where
  items : ∀ w ∈ ws, ∃ j < n, w.1.toInt = first.toInt + j ∧ firstArrival? first arrivals j = some w.2
  complete : ∀ j < n, Arrived first arrivals j → j ≤ m ∨ ∃ w ∈ ws, w.1.toInt = first.toInt + j

variable {front back ws ws' : List (Int64 × Record)} {w : Int64 × Record} {place : Int64}

theorem Awaits.concat (h : Awaits first n arrivals m ws) (hn : n ≤ 2147483648) (hj : j < n)
    (hr : r.sequence = some (numberAt first j)) (hnew : ¬ Arrived first arrivals j)
    (hplace : place.toInt = first.toInt + j) (hperm : ws'.Perm ((place, r) :: ws)) :
    Awaits first n (arrivals ++ [r]) m ws' where
  items w hw := by
    rcases List.mem_cons.1 (hperm.subset hw) with rfl | hw
    · have hnone : firstArrival? first arrivals j = none :=
        Option.eq_none_iff_forall_ne_some.2 fun s hs => hnew (arrived_iff.2 ⟨s, hs⟩)
      exact ⟨j, hj, hplace, by rw [firstArrival?_concat, hnone, if_pos hr, Option.none_or]⟩
    · obtain ⟨i, hi, hplace, hitem⟩ := h.items w hw
      exact ⟨i, hi, hplace, firstArrival?_append hitem [r]⟩
  complete i hi harrived := by
    rcases arrived_concat.1 harrived with harrived | hsame
    · rcases h.complete i hi harrived with hle | ⟨w, hw, hplace⟩
      · exact .inl hle
      · exact .inr ⟨w, hperm.symm.subset (List.mem_cons_of_mem _ hw), hplace⟩
    · have hnumber : numberAt first j = numberAt first i := Option.some.inj (hr.symm.trans hsame)
      obtain rfl := numberAt_inj first (by omega) (by omega) hnumber
      exact .inr ⟨(place, r), hperm.symm.subset List.mem_cons_self, hplace⟩

theorem length_le_beyond {ws : List (Int64 × Record)} (hmissing : ¬ Arrived first arrivals i)
    (hincreasing : ws.Pairwise fun v w => v.1.toInt < w.1.toInt)
    (hitems : ∀ w ∈ ws,
      ∃ j < n, w.1.toInt = first.toInt + j ∧ i < j ∧ Arrived first arrivals j) :
    ws.length ≤ (beyond first n arrivals).length := by
  let index (w : Int64 × Record) : Nat := (w.1.toInt - first.toInt).toNat
  have hdistinct : (ws.map index).Nodup := by
    rw [List.Nodup, List.pairwise_map]
    refine hincreasing.imp_of_mem fun hv hw hlt => ?_
    obtain ⟨_, _, hv, _⟩ := hitems _ hv
    obtain ⟨_, _, hw, _⟩ := hitems _ hw
    simp only [index]
    omega
  have hsubset : ws.map index ⊆ beyond first n arrivals := by
    intro j hj
    obtain ⟨w, hw, rfl⟩ := List.mem_map.1 hj
    obtain ⟨j, hj, hplace, hlt, harrived⟩ := hitems w hw
    have hindex : index w = j := by
      simp only [index]
      omega
    rw [hindex, beyond, List.mem_filter, List.mem_range]
    exact ⟨hj, decide_eq_true ⟨harrived, i, hlt, hmissing⟩⟩
  have := (List.subperm_of_subset hdistinct hsubset).length_le
  rwa [List.length_map] at this

/-- A gap that arrivals have overtaken has no more of them behind it than there are beyond the first
number that is missing. -/
theorem Awaits.length_le (h : Awaits first n arrivals m (front ++ w :: back))
    (hincreasing : (front ++ w :: back).Pairwise fun v w => v.1.toInt < w.1.toInt)
    (hahead : first.toInt + m < w.1.toInt) (hfront : Successive (first.toInt + m) front)
    (hgap : w.1.toInt ≠ first.toInt + m + front.length + 1) :
    (w :: back).length ≤ (beyond first n arrivals).length := by
  obtain ⟨-, hback, hcross⟩ := List.pairwise_append.1 hincreasing
  have hfirst := hfront.lt hahead fun v hv => hcross v hv w List.mem_cons_self
  have hbehind : ∀ v ∈ w :: back, first.toInt + (m + 1 + front.length : Nat) < v.1.toInt := by
    intro v hv
    push_cast
    rcases List.mem_cons.1 hv with rfl | hv
    · omega
    · have := (List.pairwise_cons.1 hback).1 v hv
      omega
  have hmissing : ¬ Arrived first arrivals (m + 1 + front.length) := by
    intro harrived
    obtain ⟨i, hi, hplace, -⟩ := h.items w (List.mem_append_right front List.mem_cons_self)
    have hw := hbehind w List.mem_cons_self
    rcases h.complete (m + 1 + front.length) (by omega) harrived with hle | ⟨v, hv, hsame⟩
    · omega
    · rcases List.mem_append.1 hv with hv | hv
      · have := hfront.le hv
        push_cast at hsame
        omega
      · have := hbehind v hv
        omega
  refine length_le_beyond hmissing hback fun v hv => ?_
  obtain ⟨i, hi, hplace, hitem⟩ := h.items v (List.mem_append_right front hv)
  have := hbehind v hv
  exact ⟨i, hi, hplace, by omega, arrived_iff.2 ⟨v.2, hitem⟩⟩

/-- What leaves from successive places are the first arrivals of successive numbers of the run. -/
theorem Awaits.map_front (h : Awaits first n arrivals m (front ++ back))
    (hfront : Successive (first.toInt + m) front) (hm : m < n) :
    front.map (fun w => some w.2) =
        (List.range' (m + 1) front.length).map (firstArrival? first arrivals) ∧
      m + front.length < n := by
  have hitems : ∀ w ∈ front, _ := fun w hw => h.items w (List.mem_append_left back hw)
  clear h
  induction front generalizing m with
  | nil => exact ⟨rfl, hm⟩
  | cons w front ih =>
    obtain ⟨hw, hrest⟩ := hfront
    obtain ⟨i, hi, hplace, hitem⟩ := hitems w List.mem_cons_self
    obtain rfl : i = m + 1 := by omega
    have hnext : first.toInt + m + 1 = first.toInt + (m + 1 : Nat) := by
      push_cast
      omega
    obtain ⟨hmap, hless⟩ := ih (m := m + 1) (hnext ▸ hrest) hi
      fun v hv => hitems v (List.mem_cons_of_mem w hv)
    rw [List.map_cons, List.length_cons, List.range'_succ, List.map_cons, hitem, hmap]
    exact ⟨rfl, by omega⟩

theorem Awaits.behind (h : Awaits first n arrivals m (front ++ back))
    (hfront : Successive (first.toInt + m) front) :
    Awaits first n arrivals (m + front.length) back where
  items w hw := h.items w (List.mem_append_right front hw)
  complete i hi harrived := by
    rcases h.complete i hi harrived with hle | ⟨w, hw, hplace⟩
    · exact .inl (by omega)
    · rcases List.mem_append.1 hw with hw | hw
      · have := hfront.le hw
        exact .inl (by omega)
      · exact .inr ⟨w, hw, hplace⟩

/-! ### Catching up with the arrivals -/

variable {x : Account}

/-- An account of the arrivals so far that has come to number `m` of a run of `n`: each number up to
it was released by its first arrival, and those beyond it that have arrived wait. -/
structure Caught (first : Int32) (n capacity : Nat) (arrivals : List Record) (x : Account)
    (m : Nat) : Prop where
  ordered : x.buffer.Ordered
  capacity_eq : x.buffer.capacity = max capacity 1
  opened : x.buffer.lastReleased ≠ none
  position : x.buffer.position.toInt = first.toInt + m
  inRun : m < n
  released : x.released.map some = (List.range' 0 (m + 1)).map (firstArrival? first arrivals)
  awaits : Awaits first n arrivals m x.buffer.waiting
  dropped : x.dropped = repeats arrivals

theorem caught_first (capacity : Nat) (hr : r.sequence = some first) (hpos : 0 < n)
    (hn : n ≤ 2147483648) : Caught first n capacity [r] (run capacity [.push r]) 0 := by
  have hnumber : numberAt first 0 = first := by simp [numberAt]
  let b : ReorderBuffer Record := new capacity
  have hpush : b.pushRecord r =
      ([(first.toInt64, r)].map Prod.snd, { b.passed first.toInt64 with waiting := [] }) := by
    rw [pushRecord, hr]
    exact push_unopened (ordered_new capacity) rfl first r
  have hkeeps : ¬ b.Drops r := keeps_of_perm hpush (.refl _)
  have hrun : run capacity [.push r] =
      ⟨[r], [], { b.passed first.toInt64 with waiting := [] }⟩ := by
    show Account.step ⟨[], [], b⟩ (.push r) = _
    simp [Account.step, hkeeps, hpush]
  rw [hrun]
  exact {
    ordered := ordered_passed b first.toInt64
    capacity_eq := rfl
    opened := Option.some_ne_none _
    position := by simp [passed]
    inRun := hpos
    released := by simp [firstArrival?, hnumber, hr]
    awaits := by
      refine ⟨fun _ h => absurd h List.not_mem_nil, ?_⟩
      rintro j hj ⟨s, hs, hseq⟩
      rw [List.mem_singleton.1 hs, hr] at hseq
      have hsame : numberAt first 0 = numberAt first j := hnumber.trans (Option.some.inj hseq)
      exact .inl (Nat.le_of_eq (numberAt_inj first (by omega) (by omega) hsame).symm)
    dropped := rfl }

namespace Caught

variable (h : Caught first n capacity arrivals x m) (hn : n ≤ 2147483648)
include h

theorem arrived_of_le (hj : j ≤ m) : Arrived first arrivals j := by
  have hmem : firstArrival? first arrivals j ∈ x.released.map some := by
    rw [h.released]
    exact List.mem_map_of_mem (List.mem_range'_1.2 (by omega))
  obtain ⟨r, -, hr⟩ := List.mem_map.1 hmem
  exact arrived_iff.2 ⟨r, hr.symm⟩

theorem lastReleased : x.buffer.lastReleased = some (numberAt first m) := by
  obtain ⟨last, hlast⟩ := Option.ne_none_iff_exists'.1 h.opened
  rw [hlast, h.ordered.last last hlast, toInt32_eq_numberAt h.position]

include hn

theorem clear : x.buffer.Clear := by
  have hbound := first.toInt_lt
  have hrun := h.inRun
  unfold Clear reach
  rw [h.position]
  omega

theorem refuses_iff (hj : j < n) :
    x.buffer.Refuses (numberAt first j) ↔ Arrived first arrivals j := by
  have hrun := h.inRun
  have hlate : numberAt first j - numberAt first m ≤ 0 ↔ j ≤ m := by
    rw [Int32.le_iff_toInt_le, toInt_numberAt_sub first (by omega) (by omega), Int32.toInt_zero]
    omega
  constructor
  · rintro (⟨last, hlast, hle⟩ | ⟨w, hw, hseq⟩)
    · rw [h.lastReleased] at hlast
      obtain rfl := Option.some.inj hlast
      exact h.arrived_of_le (hlate.1 hle)
    · obtain ⟨i, hi, hplace, hitem⟩ := h.awaits.items w hw
      rw [toInt32_eq_numberAt hplace] at hseq
      obtain rfl := numberAt_inj first (by omega) (by omega) hseq
      exact arrived_iff.2 ⟨w.2, hitem⟩
  · intro harrived
    rcases h.awaits.complete j hj harrived with hle | ⟨w, hw, hplace⟩
    · exact .inl ⟨numberAt first m, h.lastReleased, hlate.2 hle⟩
    · exact .inr ⟨w, hw, toInt32_eq_numberAt hplace⟩

theorem push_repeat (hj : j < n) (hr : r.sequence = some (numberAt first j))
    (harrived : Arrived first arrivals j) :
    Caught first n capacity (arrivals ++ [r]) (x.step (.push r)) m := by
  have hpush : x.buffer.pushRecord r = ([], x.buffer) := by
    rw [pushRecord, hr]
    exact push_refused h.ordered (h.clear hn) ((h.refuses_iff hn hj).2 harrived) r
  have hdrops : x.buffer.Drops r := by simp [Drops, hpush]
  have hstep : x.step (.push r) = { x with dropped := x.dropped ++ [r] } := by
    simp [Account.step, hdrops, hpush]
  have hfirst : firstArrival? first (arrivals ++ [r]) = firstArrival? first arrivals := by
    funext i
    rw [firstArrival?_concat]
    split
    · next hsame =>
      have hnumber : numberAt first j = numberAt first i := Option.some.inj (hr.symm.trans hsame)
      obtain ⟨s, hs⟩ := arrived_iff.1 harrived
      have hs : firstArrival? first arrivals i = some s := by
        rw [firstArrival?, ← hnumber]
        exact hs
      rw [hs]
      rfl
    · exact Option.or_none
  have harrivals : ∀ i, Arrived first (arrivals ++ [r]) i ↔ Arrived first arrivals i := by
    intro i
    rw [arrived_iff, arrived_iff, hfirst]
  rw [hstep]
  exact { h with
    released := hfirst ▸ h.released
    awaits := {
      items := hfirst ▸ h.awaits.items
      complete := fun i hi hi' => h.awaits.complete i hi ((harrivals i).1 hi') }
    dropped := by rw [repeats_concat hr, if_pos harrived, ← h.dropped] }

/-- A new number joins those that wait, and then everything in front of the first that is missing
leaves. -/
theorem push_new (hj : j < n) (hr : r.sequence = some (numberAt first j))
    (hnew : ¬ Arrived first arrivals j)
    (hlocal : (beyond first n (arrivals ++ [r])).length ≤ capacity) :
    ∃ m', Caught first n capacity (arrivals ++ [r]) (x.step (.push r)) m' := by
  have hclear := h.clear hn
  have hrun := h.inRun
  obtain ⟨place, ws, hseq, hperm, hpush, hincreasing, hnear⟩ :=
    push_opened h.ordered hclear h.opened (mt (h.refuses_iff hn hj).1 hnew) r
  have hplace : place.toInt = first.toInt + j := by
    obtain ⟨hlow, hhigh⟩ : x.buffer.position.toInt < place.toInt ∧
        place.toInt < x.buffer.position.toInt + reach :=
      hnear (place, r) (hperm.symm.subset List.mem_cons_self)
    have hdiff := toInt_sub_toInt32 (Int.le_of_lt hlow) hhigh
    rw [hseq, toInt32_eq_numberAt h.position, toInt_numberAt_sub first (by omega) (by omega),
      h.position] at hdiff
    omega
  have hawaits := h.awaits.concat hn hj hr hnew hplace hperm
  have hroom : ∀ front w back, ws = front ++ w :: back →
      Successive x.buffer.position.toInt front →
      w.1.toInt ≠ x.buffer.position.toInt + front.length + 1 →
      (w :: back).length ≤ x.buffer.capacity := by
    rintro front w back rfl hfront hgap
    have hahead := (hnear w (List.mem_append_right front List.mem_cons_self)).1
    rw [h.position] at hahead hfront hgap
    rw [h.capacity_eq]
    exact Nat.le_trans (hawaits.length_le hincreasing hahead hfront hgap)
      (Nat.le_trans hlocal (Nat.le_max_left capacity 1))
  have hrange : ∀ p : Int, p < x.buffer.position.toInt + reach → p < 9223372036854775807 := by
    intro p hp
    unfold Clear at hclear
    omega
  obtain ⟨front, back, rfl, hfront, hsettle, hstop⟩ := settle_successive h.opened
    (hrange _ (by unfold reach; omega)) (fun w hw => hrange _ (hnear w hw).2) hroom
  have hpush : x.buffer.pushRecord r =
      (front.map Prod.snd, { x.buffer.after front with waiting := back }) := by
    rw [pushRecord, hr]
    exact hpush.trans hsettle
  have hkeeps : ¬ x.buffer.Drops r := keeps_of_perm hpush (hperm.map Prod.snd)
  have hstep : x.step (.push r) = ⟨x.released ++ front.map Prod.snd, x.dropped,
      { x.buffer.after front with waiting := back }⟩ := by
    simp [Account.step, hkeeps, hpush]
  have hposition := position_after_successive hfront
  rw [h.position] at hfront hposition
  obtain ⟨hfrontItems, hinRun⟩ := hawaits.map_front hfront hrun
  refine ⟨m + front.length, ?_⟩
  rw [hstep]
  exact {
    ordered := (releases_of_settle h.ordered hclear h.opened hincreasing hnear hstop).ordered
    capacity_eq := (capacity_after x.buffer front).trans h.capacity_eq
    opened := by
      rcases after_eq x.buffer front with ⟨_, hafter⟩ | ⟨w, _, _, hafter⟩
      · exact hafter.symm ▸ h.opened
      · exact hafter.symm ▸ Option.some_ne_none _
    position := by
      show (x.buffer.after front).position.toInt = _
      rw [hposition]
      push_cast
      omega
    inRun := hinRun
    released := by
      have hbefore : (List.range' 0 (m + 1)).map (firstArrival? first arrivals) =
          (List.range' 0 (m + 1)).map (firstArrival? first (arrivals ++ [r])) := by
        refine List.map_congr_left fun i hi => ?_
        have hi := List.mem_range'_1.1 hi
        obtain ⟨s, hs⟩ := arrived_iff.1 (h.arrived_of_le (j := i) (by omega))
        rw [hs, firstArrival?_append hs [r]]
      have hsplit : List.range' 0 (m + front.length + 1) =
          List.range' 0 (m + 1) ++ List.range' (m + 1) front.length := by
        have happend := List.range'_append_1 (s := 0) (m := m + 1) (n := front.length)
        rw [Nat.zero_add] at happend
        rw [happend, Nat.add_right_comm]
      rw [List.map_append, h.released, hbefore, hsplit, List.map_append, ← hfrontItems,
        List.map_map]
      rfl
    awaits := hawaits.behind hfront
    dropped := by rw [repeats_concat hr, if_neg hnew, List.append_nil, ← h.dropped] }

end Caught

/-! ### Whole runs -/

/-- Arrivals of a run of `n` sequence numbers from `first` on: no other number arrives, each of them
does, and the first of them arrives first. -/
structure Shuffle (first : Int32) (n : Nat) (arrivals : List Record) : Prop where
  inside : ∀ r ∈ arrivals, ∃ j < n, r.sequence = some (numberAt first j)
  complete : ∀ j < n, Arrived first arrivals j
  opens : arrivals.head?.bind Record.sequence = some first

theorem caught_run (hn : n ≤ 2147483648)
    (hinside : ∀ r ∈ arrivals, ∃ j < n, r.sequence = some (numberAt first j))
    (hopens : arrivals.head?.bind Record.sequence = some first)
    (hlocal : ∀ before, before <+: arrivals → (beyond first n before).length ≤ capacity) :
    ∃ m, Caught first n capacity arrivals (run capacity (arrivals.map .push)) m := by
  induction arrivals using List.reverseRecOn with
  | nil => cases hopens
  | append_singleton before r ih =>
    obtain ⟨j, hj, hr⟩ := hinside r List.mem_concat_self
    cases before with
    | nil =>
      have hfirst : r.sequence = some first := hopens
      exact ⟨0, caught_first capacity hfirst (by omega) hn⟩
    | cons r₀ before =>
      obtain ⟨m, hcaught⟩ := ih (fun s hs => hinside s (List.mem_append_left [r] hs)) hopens
        fun front hfront => hlocal front (hfront.trans (List.prefix_append _ [r]))
      rw [List.map_append, List.map_singleton, run_concat]
      by_cases harrived : Arrived first (r₀ :: before) j
      · exact ⟨m, hcaught.push_repeat hn hj hr harrived⟩
      · exact hcaught.push_new hn hj hr harrived (hlocal _ (List.prefix_refl _))

/-- **A local shuffle is undone.** The numbers of a run arrive in any order, each at least once and
the first of them first, and never have more of them than the buffer holds overtaken the first that
is missing. Then the buffer releases each number's first arrival, in the order of the run, drops the
repeats and nothing else, and is empty in the end. -/
theorem run_restores_shuffle (hn : n ≤ 2147483648) (hshuffle : Shuffle first n arrivals)
    (hlocal : ∀ before, before <+: arrivals → (beyond first n before).length ≤ capacity) :
    let x := run capacity (arrivals.map .push)
    x.released.map some = (List.range n).map (firstArrival? first arrivals) ∧
      x.released.map Record.sequence = (List.range n).map (fun j => some (numberAt first j)) ∧
      x.dropped = repeats arrivals ∧ x.buffer.waiting = [] := by
  intro x
  obtain ⟨m, h⟩ := caught_run hn hshuffle.inside hshuffle.opens hlocal
  have hbehind : ∀ w ∈ x.buffer.waiting, first.toInt + m + 1 < w.1.toInt := by
    intro w hw
    rw [← h.position]
    exact h.ordered.behindGap w hw
  -- the number behind the last one released would have to wait, but what waits is behind a gap
  have hlast : m + 1 = n := by
    have hm := h.inRun
    by_contra hmore
    have harrived := hshuffle.complete (m + 1) (by omega)
    rcases h.awaits.complete (m + 1) (by omega) harrived with hle | ⟨w, hw, hplace⟩
    · omega
    · have := hbehind w hw
      push_cast at hplace
      omega
  have hreleased : x.released.map some = (List.range n).map (firstArrival? first arrivals) := by
    rw [List.range_eq_range', ← hlast]
    exact h.released
  refine ⟨hreleased, ?_, h.dropped, List.eq_nil_iff_forall_not_mem.2 fun w hw => ?_⟩
  · have hnumbers : (x.released.map some).map (·.bind Record.sequence) =
        (List.range n).map (fun j => some (numberAt first j)) := by
      rw [hreleased, List.map_map]
      refine List.map_congr_left fun j hj => ?_
      obtain ⟨r, hr⟩ := arrived_iff.1 (hshuffle.complete j (List.mem_range.1 hj))
      simp [hr, sequence_of_firstArrival? hr]
    rw [← hnumbers, List.map_map]
    rfl
  · obtain ⟨j, hj, hplace, -⟩ := h.awaits.items w hw
    have := hbehind w hw
    omega

/-- Four numbers of which the last two lie behind the largest: both overtake the second, and one of
them arrives twice. -/
theorem run_restores_shuffle_past_largest :
    let arrival (seq : Int32) : Record := { Record.blank with sequence := some seq }
    let arrivals := [arrival 2147483646, arrival (-2147483648), arrival (-2147483648),
      arrival (-2147483647), arrival 2147483647]
    4 ≤ 2147483648 ∧ Shuffle 2147483646 4 arrivals ∧
      (∀ before, before <+: arrivals → (beyond 2147483646 4 before).length ≤ 2) ∧
      (run 2 (arrivals.map .push)).released.map Record.sequence =
        [some 2147483646, some 2147483647, some (-2147483648), some (-2147483647)] ∧
      (run 2 (arrivals.map .push)).dropped = [arrival (-2147483648)] ∧
      (run 2 (arrivals.map .push)).buffer.waiting = [] := by
  intro arrival arrivals
  have hshuffle : Shuffle 2147483646 4 arrivals := ⟨by decide, by decide, rfl⟩
  have hlocal : ∀ before, before <+: arrivals → (beyond 2147483646 4 before).length ≤ 2 := by
    have hinits : ∀ before ∈ arrivals.inits, (beyond 2147483646 4 before).length ≤ 2 := by decide
    exact fun before hbefore => hinits before ((List.mem_inits before arrivals).2 hbefore)
  obtain ⟨-, hnumbers, hdropped, hwaiting⟩ := run_restores_shuffle (by decide) hshuffle hlocal
  exact ⟨by decide, hshuffle, hlocal, hnumbers, hdropped, hwaiting⟩

end SeisFeed.Delivery.ReorderBuffer
