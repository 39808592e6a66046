import Mathlib.Data.List.Chain
import SeisFeed.Proofs.Delivery.Places
/-!
# Runs of a reorder buffer

A run pushes records into a new buffer and flushes it, in any order. What it releases leaves in the
order of the sequence numbers, even where they wrap; every record pushed is released once, still
waits, or was dropped when it was pushed, because it came too late or its number waited already; and
what waits is ahead of what was released, behind a gap, and no more than the capacity. `Sound` is
what every operation preserves, and `sound_step` that it does.
-/

namespace SeisFeed.Delivery.ReorderBuffer

open Waveform (Record)

/-- What can be done to a buffer of records. -/
inductive Operation where
  | push (r : Record)
  | flush

def pushed : List Operation → List Record
  | [] => []
  | .push r :: ops => r :: pushed ops
  | .flush :: ops => pushed ops

def records (b : ReorderBuffer Record) : List Record :=
  b.waiting.map Prod.snd

/-- A push drops its record if no more records leave and wait after it than waited before. -/
def Drops (b : ReorderBuffer Record) (r : Record) : Prop :=
  (b.pushRecord r).1.length + (b.pushRecord r).2.records.length = b.records.length

instance (b : ReorderBuffer Record) (r : Record) : Decidable (b.Drops r) :=
  inferInstanceAs (Decidable (_ = _))

/-- A record whose number is not ahead of the last one released, or is that of a record that
waits. -/
def Unwanted (b : ReorderBuffer Record) (r : Record) : Prop :=
  ∃ seq, r.sequence = some seq ∧ ((∃ last, b.lastReleased = some last ∧ (seq - last).toInt ≤ 0) ∨
    ∃ w ∈ b.records, w.sequence = some seq)

/-- What a run has come to: the records released and those dropped, in order, and the buffer. -/
structure Account where
  released : List Record
  dropped : List Record
  buffer : ReorderBuffer Record

def Account.step (a : Account) : Operation → Account
  | .push r => {
      released := a.released ++ (a.buffer.pushRecord r).1
      dropped := if a.buffer.Drops r then a.dropped ++ [r] else a.dropped
      buffer := (a.buffer.pushRecord r).2 }
  | .flush => {
      released := a.released ++ a.buffer.flush.1
      dropped := a.dropped
      buffer := a.buffer.flush.2 }

def run (capacity : Nat) (ops : List Operation) : Account :=
  ops.foldl Account.step ⟨[], [], new capacity⟩

/-- A record whose number is ahead of that of the one before it. -/
def Follows (r s : Record) : Prop :=
  ∃ m n, r.sequence = some m ∧ s.sequence = some n ∧
    1 ≤ (n - m).toInt ∧ (n - m).toInt ≤ 2147483647

@[simp] theorem run_concat (capacity : Nat) (ops : List Operation) (op : Operation) :
    run capacity (ops ++ [op]) = (run capacity ops).step op := by
  simp [run]

@[simp] theorem pushed_append (ops ops' : List Operation) :
    pushed (ops ++ ops') = pushed ops ++ pushed ops' := by
  induction ops with
  | nil => rfl
  | cons op ops ih => cases op <;> simp [pushed, ih]

/-! ### What every operation preserves -/

def Numbered (ws : List (Int64 × Record)) : Prop :=
  ∀ w ∈ ws, w.2.sequence = some w.1.toInt32

/-- What holds of a run after some operations that pushed the records `taken`. -/
structure Account.Sound (a : Account) (capacity count : Nat) (taken : List Record) : Prop where
  ordered : a.buffer.Ordered
  numbered : Numbered a.buffer.waiting
  capacity_eq : a.buffer.capacity = max capacity 1
  position_le : a.buffer.position.toInt ≤ count * 2147483647
  last : a.buffer.lastReleased = a.released.getLast?.bind Record.sequence
  releasedNumbered : ∀ r ∈ a.released, r.sequence ≠ none
  chain : a.released.IsChain Follows
  accounted : (a.released ++ a.buffer.records ++ a.dropped).Perm taken

theorem sound_new (capacity : Nat) :
    (Account.mk [] [] (new capacity)).Sound capacity 0 [] where
  ordered := ordered_new capacity
  numbered _ h := nomatch h
  capacity_eq := rfl
  position_le := Int.le_refl _
  last := rfl
  releasedNumbered _ h := nomatch h
  chain := .nil
  accounted := .refl _

theorem clear_of_position_le {b : ReorderBuffer Record} {count : Nat}
    (hposition : b.position.toInt ≤ count * 2147483647) (hcount : count ≤ 2147483648) :
    b.Clear := by
  have : (count : Int) * 2147483647 ≤ 2147483648 * 2147483647 := by omega
  unfold Clear reach
  omega

theorem position_le_of_releases {b : ReorderBuffer Record} {front back : List (Int64 × Record)}
    {count : Nat} (hrel : b.Releases front back)
    (hposition : b.position.toInt ≤ count * 2147483647) :
    (b.after front).position.toInt ≤ ((count + 1 : Nat) : Int) * 2147483647 := by
  have hmul : ((count + 1 : Nat) : Int) * 2147483647 = count * 2147483647 + 2147483647 := by
    omega
  rw [hmul]
  rcases after_eq b front with ⟨_, hafter⟩ | ⟨w, hw, _, hafter⟩
  · rw [hafter]
    omega
  · rw [hafter]
    show w.1.toInt ≤ _
    by_cases hopened : b.lastReleased = none
    · have := hrel.opening hopened w hw
      unfold reach at this
      omega
    · have := (hrel.ahead hopened w hw).2
      unfold reach at this
      omega

theorem clear_of_sound {a : Account} {capacity count : Nat} {taken : List Record}
    (h : a.Sound capacity count taken) (hcount : count ≤ 2147483648) : a.buffer.Clear :=
  clear_of_position_le h.position_le hcount

theorem follows_of_near {r s : Record} {p q : Int64} (hr : r.sequence = some p.toInt32)
    (hs : s.sequence = some q.toInt32) (hlt : p.toInt < q.toInt)
    (hnear : q.toInt < p.toInt + reach) : Follows r s := by
  have hdiff := toInt_sub_toInt32 (Int.le_of_lt hlt) hnear
  unfold reach at hnear
  exact ⟨_, _, hr, hs, by omega, by omega⟩

theorem sound_release {a : Account} {capacity count : Nat} {taken taken' dropped : List Record}
    {front back : List (Int64 × Record)} (h : a.Sound capacity count taken)
    (hrel : a.buffer.Releases front back) (hnum : Numbered (front ++ back))
    (haccounted : (a.released ++ (front ++ back).map Prod.snd ++ dropped).Perm taken') :
    (Account.mk (a.released ++ front.map Prod.snd) dropped
      { a.buffer.after front with waiting := back }).Sound capacity (count + 1) taken' where
  ordered := hrel.ordered
  numbered w hw := hnum w (List.mem_append_right front hw)
  capacity_eq := (capacity_after a.buffer front).trans h.capacity_eq
  position_le := position_le_of_releases hrel h.position_le
  last := by
    show (a.buffer.after front).lastReleased = _
    rcases after_eq a.buffer front with ⟨rfl, hafter⟩ | ⟨w, hw, hlast, hafter⟩
    · simp [h.last]
    · rw [hafter]
      simp [List.getLast?_append, hlast, hnum w (List.mem_append_left back hw), passed]
  releasedNumbered r hr := by
    rcases List.mem_append.1 hr with hr | hr
    · exact h.releasedNumbered r hr
    · obtain ⟨w, hw, rfl⟩ := List.mem_map.1 hr
      simp [hnum w (List.mem_append_left back hw)]
  chain := by
    refine h.chain.append ?_ fun r hr s hs => ?_
    · rw [List.isChain_map]
      refine (hrel.spaced.imp_of_mem fun hv hw hvw => ?_).isChain
      exact follows_of_near (hnum _ (List.mem_append_left back hv))
        (hnum _ (List.mem_append_left back hw)) hvw.1 hvw.2
    · -- the seam: the last record released stands at the buffer's position
      obtain ⟨w, hw, rfl⟩ : ∃ w ∈ front, w.2 = s := by
        simpa using List.mem_of_mem_head? hs
      have hnumber : a.buffer.lastReleased = r.sequence := by
        rw [h.last, Option.mem_def.1 hr]
        rfl
      obtain ⟨seq, hseq⟩ :=
        Option.ne_none_iff_exists'.1 (h.releasedNumbered r (List.mem_of_getLast? hr))
      have hplace := h.ordered.last seq (hnumber.trans hseq)
      have hahead := hrel.ahead (by simp [hnumber, hseq]) w hw
      exact follows_of_near (hplace ▸ hseq) (hnum w (List.mem_append_left back hw)) hahead.1
        hahead.2
  accounted := by
    simpa [records, List.append_assoc] using haccounted

theorem unwanted_iff_refuses {b : ReorderBuffer Record} (hnum : Numbered b.waiting) {r : Record}
    {seq : Int32} (hseq : r.sequence = some seq) : b.Unwanted r ↔ b.Refuses seq := by
  have hlate : ∀ last, (seq - last).toInt ≤ 0 ↔ seq - last ≤ 0 := fun last => by
    rw [Int32.le_iff_toInt_le, Int32.toInt_zero]
  have htaken : (∃ w ∈ b.records, w.sequence = some seq) ↔
      ∃ w ∈ b.waiting, w.1.toInt32 = seq := by
    constructor
    · rintro ⟨s, hs, hsame⟩
      obtain ⟨w, hw, rfl⟩ := List.mem_map.1 hs
      exact ⟨w, hw, Option.some.inj ((hnum w hw).symm.trans hsame)⟩
    · rintro ⟨w, hw, hsame⟩
      exact ⟨w.2, List.mem_map_of_mem hw, hsame ▸ hnum w hw⟩
  simp only [Unwanted, hseq, Option.some.injEq, exists_eq_left', hlate]
  exact or_congr_right htaken

/-- A push after which the record pushed is among those that left or wait has not dropped it. -/
theorem keeps_of_perm {b b' : ReorderBuffer Record} {r : Record}
    {front back : List (Int64 × Record)}
    (hpush : b.pushRecord r = (front.map Prod.snd, { b' with waiting := back }))
    (hperm : ((front ++ back).map Prod.snd).Perm (r :: b.records)) : ¬ b.Drops r := by
  have hlength : front.length + back.length = b.records.length + 1 := by
    simpa using hperm.length_eq
  simp only [Drops, hpush, records, List.length_map] at hlength ⊢
  omega

/-- What a push of a numbered record does: it drops what is not wanted and changes nothing then, and
otherwise keeps the record. -/
theorem pushRecord_cases {b : ReorderBuffer Record} (hb : b.Ordered) (hclear : b.Clear)
    (hnum : Numbered b.waiting) {r : Record} (hr : r.sequence ≠ none) :
    b.Unwanted r ∧ b.Drops r ∧ b.pushRecord r = ([], b) ∨
      ¬ b.Unwanted r ∧ ¬ b.Drops r ∧ ∃ front back, Numbered (front ++ back) ∧
        ((front ++ back).map Prod.snd).Perm (r :: b.records) ∧
        b.pushRecord r = (front.map Prod.snd, { b.after front with waiting := back }) ∧
        b.Releases front back := by
  obtain ⟨seq, hseq⟩ := Option.ne_none_iff_exists'.1 hr
  have hpush : b.pushRecord r = b.push seq r := by rw [pushRecord, hseq]
  by_cases hrefuses : b.Refuses seq
  · have hnothing : b.pushRecord r = ([], b) := hpush.trans (push_refused hb hclear hrefuses r)
    refine .inl ⟨(unwanted_iff_refuses hnum hseq).2 hrefuses, ?_, hnothing⟩
    simp [Drops, hnothing]
  · obtain ⟨place, front, back, hplace, hperm, heq, hrel⟩ := push_eq hb hclear hrefuses r
    have hkept : ((front ++ back).map Prod.snd).Perm (r :: b.records) := hperm.map Prod.snd
    refine .inr ⟨mt (unwanted_iff_refuses hnum hseq).1 hrefuses,
      keeps_of_perm (hpush.trans heq) hkept, front, back, fun w hw => ?_, hkept, hpush.trans heq,
      hrel⟩
    rcases List.mem_cons.1 (hperm.subset hw) with rfl | hw
    · exact hplace ▸ hseq
    · exact hnum w hw

theorem sound_step {a : Account} {capacity count : Nat} {taken : List Record}
    (h : a.Sound capacity count taken) (hcount : count < 2147483648) {op : Operation}
    (hop : ∀ r, op = .push r → r.sequence ≠ none) :
    (a.step op).Sound capacity (count + 1) (taken ++ pushed [op]) := by
  have hclear := clear_of_sound h (Nat.le_of_lt hcount)
  cases op with
  | push r =>
    rcases pushRecord_cases h.ordered hclear h.numbered (hop r rfl) with
      ⟨_, hdrops, heq⟩ | ⟨_, hkeeps, front, back, hnum, hperm, heq, hrel⟩
    · have hstep : a.step (.push r) = { a with dropped := a.dropped ++ [r] } := by
        simp [Account.step, hdrops, heq]
      rw [hstep]
      have hposition := h.position_le
      refine { h with position_le := by push_cast; omega, accounted := ?_ }
      simpa [pushed] using h.accounted.append_right [r]
    · have hstep : a.step (.push r) = Account.mk (a.released ++ front.map Prod.snd) a.dropped
          { a.buffer.after front with waiting := back } := by
        simp [Account.step, hkeeps, heq]
      rw [hstep]
      refine sound_release h hrel hnum ?_
      have hkept := (hperm.append_left a.released).append_right a.dropped
      have hmiddle : (a.released ++ r :: a.buffer.records ++ a.dropped).Perm
          (r :: (a.released ++ a.buffer.records ++ a.dropped)) := by
        simp [List.perm_middle]
      exact hkept.trans
        (hmiddle.trans ((h.accounted.cons r).trans (List.perm_append_singleton r taken).symm))
  | flush =>
    obtain ⟨heq, hrel⟩ := flush_eq h.ordered hclear
    have hstep : a.step .flush = Account.mk (a.released ++ a.buffer.waiting.map Prod.snd) a.dropped
        { a.buffer.after a.buffer.waiting with waiting := [] } := by
      simp [Account.step, heq]
    rw [hstep]
    refine sound_release h hrel (by simpa using h.numbered) ?_
    simpa [pushed, records] using h.accounted

theorem sound_run (capacity : Nat) (ops : List Operation)
    (hnumbered : ∀ r, .push r ∈ ops → r.sequence ≠ none) (hlength : ops.length ≤ 2147483648) :
    (run capacity ops).Sound capacity ops.length (pushed ops) := by
  induction ops using List.reverseRecOn with
  | nil => exact sound_new capacity
  | append_singleton ops op ih =>
    rw [List.length_append, List.length_singleton] at hlength ⊢
    rw [run_concat, pushed_append]
    refine sound_step (ih (fun r hr => ?_) (by omega)) (by omega) fun r hr => ?_
    · exact hnumbered r (List.mem_append_left [op] hr)
    · exact hnumbered r (hr ▸ List.mem_concat_self)

theorem Account.Sound.waiting_ahead {a : Account} {capacity count : Nat} {taken : List Record}
    (h : a.Sound capacity count taken) {w : Int64 × Record} (hw : w ∈ a.buffer.waiting) :
    ∃ last seq, a.buffer.lastReleased = some last ∧ w.2.sequence = some seq ∧
      0 < (seq - last).toInt ∧ seq ≠ last + 1 := by
  have hopened : a.buffer.lastReleased ≠ none := fun hnone => by
    simp [h.ordered.unopened hnone] at hw
  obtain ⟨last, hlast⟩ := Option.ne_none_iff_exists'.1 hopened
  have hplace := h.ordered.last last hlast
  have hgap := h.ordered.behindGap w hw
  have hdiff := toInt_sub_toInt32 (p := a.buffer.position) (by omega) (h.ordered.near w hw)
  rw [← hplace] at hdiff
  refine ⟨last, w.1.toInt32, hlast, h.numbered w hw, by omega, fun hnext => ?_⟩
  have hone : (last + 1 - last).toInt = 1 := by
    rw [Int32.add_comm, Int32.add_sub_cancel]
    rfl
  rw [hnext, hone] at hdiff
  omega

/-- **Runs of a reorder buffer.** In a run of at most `2 ^ 31` operations with numbered records,
each record released is ahead of the one released before it; the records pushed are those released,
those that wait and those dropped; a push drops its record exactly if its number is not ahead of the
last one released or waits already, and then nothing changes, while any other push keeps its record
and all that waited; and after every operation there wait at most as many records as there is room
for, each ahead of the last one released but not next to it. -/
theorem run_in_order (capacity : Nat) (ops : List Operation)
    (hnumbered : ∀ r, .push r ∈ ops → r.sequence ≠ none) (hlength : ops.length ≤ 2147483648) :
    (run capacity ops).released.IsChain Follows ∧
    ((run capacity ops).released ++ (run capacity ops).buffer.records ++
      (run capacity ops).dropped).Perm (pushed ops) ∧
    (∀ before r later, ops = before ++ .push r :: later →
      let b := (run capacity before).buffer
      (b.Drops r ↔ ∃ seq, r.sequence = some seq ∧
        ((∃ last, b.lastReleased = some last ∧ (seq - last).toInt ≤ 0) ∨
          ∃ w ∈ b.records, w.sequence = some seq)) ∧
      (b.Drops r → b.pushRecord r = ([], b)) ∧
      (¬ b.Drops r →
        ((b.pushRecord r).1 ++ (b.pushRecord r).2.records).Perm (r :: b.records))) ∧
    ∀ before later, ops = before ++ later →
      let a := run capacity before
      a.buffer.records.length ≤ max capacity 1 ∧
      a.buffer.lastReleased = a.released.getLast?.bind Record.sequence ∧
      ∀ w ∈ a.buffer.records, ∃ last seq, a.buffer.lastReleased = some last ∧
        w.sequence = some seq ∧ 0 < (seq - last).toInt ∧ seq ≠ last + 1 := by
  have hprefix : ∀ before later, ops = before ++ later →
      (run capacity before).Sound capacity before.length (pushed before) := by
    rintro before later rfl
    rw [List.length_append] at hlength
    exact sound_run capacity before (fun r hr => hnumbered r (List.mem_append_left later hr))
      (by omega)
  have hall := hprefix ops [] (List.append_nil ops).symm
  refine ⟨hall.chain, hall.accounted, ?_, ?_⟩
  · intro before r later heq
    have hbefore := hprefix before (.push r :: later) heq
    have hr : r.sequence ≠ none := hnumbered r (by simp [heq])
    have hcount : before.length < ops.length := by simp [heq]
    have hclear := clear_of_sound hbefore (by omega)
    rcases pushRecord_cases hbefore.ordered hclear hbefore.numbered hr with
      ⟨hunwanted, hdrops, hnothing⟩ | ⟨hwanted, hkeeps, front, back, _, hperm, hpush, _⟩
    · exact ⟨iff_of_true hdrops hunwanted, fun _ => hnothing, fun h => absurd hdrops h⟩
    · refine ⟨iff_of_false hkeeps hwanted, fun h => absurd h hkeeps, fun _ => ?_⟩
      rw [hpush]
      simpa [records] using hperm
  · intro before later heq
    have hbefore := hprefix before later heq
    refine ⟨?_, hbefore.last, fun w hw => ?_⟩
    · rw [records, List.length_map, ← hbefore.capacity_eq]
      exact hbefore.ordered.room
    · obtain ⟨v, hv, rfl⟩ := List.mem_map.1 hw
      exact hbefore.waiting_ahead hv

private def bare (seq : Int32) : Record :=
  { Record.blank with sequence := some seq }

/-- Two records that arrive in the wrong order behind the largest number leave in the right one. -/
theorem run_in_order_past_largest :
    let ops : List Operation := [.push (bare 2147483647), .push (bare (-2147483647)),
      .push (bare (-2147483647)), .push (bare (-2147483648)), .flush]
    (∀ r, .push r ∈ ops → r.sequence ≠ none) ∧ ops.length ≤ 2147483648 ∧
      (run 4 ops).released.map Record.sequence =
        [some 2147483647, some (-2147483648), some (-2147483647)] ∧
      (run 4 ops).dropped.length = 1 ∧ (run 4 ops).released.IsChain Follows := by
  intro ops
  have hnumbered : ∀ r, .push r ∈ ops → r.sequence ≠ none := by
    intro r hr
    simp only [ops, List.mem_cons, Operation.push.injEq, reduceCtorEq, List.not_mem_nil,
      or_false] at hr
    rcases hr with rfl | rfl | rfl | rfl <;> simp [bare]
  have hlength : ops.length ≤ 2147483648 := by decide
  exact ⟨hnumbered, hlength, by decide, by decide, (run_in_order 4 ops hnumbered hlength).1⟩

end SeisFeed.Delivery.ReorderBuffer
