import Mathlib.Data.List.Sort
import SeisFeed.Proofs.Delivery.Arrivals
/-!
# When a gap is given up

A record that a reorder buffer takes lines up with those that wait already, the nearest to the last
one released in front. A push releases a front part of that line, and here it is said which: if the
front record is the next in sequence, or if the line is longer than the buffer has room for, the
records from it on whose numbers follow one another; and otherwise none. So it is only a line too
long that a gap is given up for, and only the gap in front of the line: once the front record has
gone, the others fit.

The line is found by its places. `Lined` holds of the items that a push settles, and from it comes
both that they are the line and what settling makes of them.
-/

namespace SeisFeed.Delivery.ReorderBuffer

open Waveform (Record)

/-! ### Lines and runs of numbers -/

/-- How far the number of a record is ahead of the last one released, if both are known. -/
def distance (b : ReorderBuffer Record) (r : Record) : Int :=
  match b.lastReleased, r.sequence with
  | some last, some seq => (seq - last).toInt
  | _, _ => 0

/-- A record and those that wait, in the order of how far they are ahead. -/
def lineUp (b : ReorderBuffer Record) (r : Record) : List Record :=
  (r :: b.records).insertionSort fun v w => b.distance v ≤ b.distance w

/-- The longest run of numbers that follow one another, from `seq` on, among the records of a line:
of the number behind the run the line has no record. -/
structure LongestRun (seq : Int32) (line run : List Record) : Prop where
  subset : run ⊆ line
  numbers : run.map Record.sequence =
    (List.range run.length).map fun j => some (numberAt seq j)
  ends : ∀ r ∈ line, r.sequence ≠ some (numberAt seq run.length)

/-- A number that a push passes over: it is ahead of the last one released before, not ahead of the
last one released afterwards, and no record of it has been released. -/
def PassesOver (b : ReorderBuffer Record) (r : Record) (m : Int32) : Prop :=
  ∃ last last', b.lastReleased = some last ∧ (b.pushRecord r).2.lastReleased = some last' ∧
    0 < (m - last).toInt ∧ (m - last).toInt ≤ (last' - last).toInt ∧
    ∀ w ∈ (b.pushRecord r).1, w.sequence ≠ some m

/-- What a push lets go of a line when `last` was released last: from a record that is next in
sequence all whose numbers follow on its own; with any other record none while there is room for the
line; and from a line that is one too long its front and all whose numbers follow on that. So
numbers are passed over only for a line that is too long, and they lie in one gap, in front of the
line. -/
structure GapPolicy (b : ReorderBuffer Record) (r : Record) (last seq : Int32) : Prop where
  next : seq = last + 1 → LongestRun seq (b.lineUp r) (b.pushRecord r).1
  room : seq ≠ last + 1 → (b.lineUp r).length ≤ b.capacity → (b.pushRecord r).1 = []
  crowded : seq ≠ last + 1 → (b.lineUp r).length = b.capacity + 1 →
    ∃ lowest rest n, b.lineUp r = lowest :: rest ∧ lowest.sequence = some n ∧
      LongestRun n (b.lineUp r) (b.pushRecord r).1
  passed : ∀ m, b.PassesOver r m → (b.lineUp r).length = b.capacity + 1 ∧
    ∀ w ∈ b.lineUp r, (m - last).toInt < b.distance w

variable {b : ReorderBuffer Record} {r : Record} {seq last m : Int32} {place : Int64} {o : Int}
  {w : Int64 × Record} {ws front back rest : List (Int64 × Record)}

/-! ### Items at successive places -/

theorem Successive.getElem (h : Successive o ws) {j : Nat} (hj : j < ws.length) :
    ws[j].1.toInt = o + 1 + j := by
  induction ws generalizing o j with
  | nil => cases hj
  | cons w ws ih =>
    obtain ⟨hw, hws⟩ := h
    cases j with
    | zero => simpa using hw
    | succ j =>
      have hrest := ih hws (Nat.lt_of_succ_lt_succ hj)
      rw [List.getElem_cons_succ, hrest]
      push_cast
      omega

theorem Successive.run (h : Successive w.1.toInt front) :
    Successive (w.1.toInt - 1) (w :: front) := by
  refine ⟨by omega, ?_⟩
  rwa [Int.sub_add_cancel]

theorem Successive.exists_mem_run (h : Successive w.1.toInt front) {d : Int}
    (hlow : w.1.toInt ≤ d) (hhigh : d ≤ w.1.toInt + front.length) :
    ∃ v ∈ w :: front, v.1.toInt = d := by
  have hj : (d - w.1.toInt).toNat < (w :: front).length := by
    rw [List.length_cons]
    omega
  refine ⟨(w :: front)[(d - w.1.toInt).toNat], List.getElem_mem hj, ?_⟩
  rw [h.run.getElem hj]
  omega

/-! ### What a push settles -/

/-- Items in the order of their places, each ahead of the last one released and within reach of it,
with the numbers of their places. -/
structure Lined (b : ReorderBuffer Record) (ws : List (Int64 × Record)) : Prop where
  opened : b.lastReleased ≠ none
  last : ∀ seq, b.lastReleased = some seq → seq = b.position.toInt32
  clear : b.Clear
  numbered : Numbered ws
  increasing : ws.Pairwise fun v w => v.1.toInt < w.1.toInt
  near : ∀ w ∈ ws, b.position.toInt < w.1.toInt ∧ w.1.toInt < b.position.toInt + reach

theorem lined_push (hb : b.Ordered) (hclear : b.Clear) (hnum : Numbered b.waiting)
    (hopened : b.lastReleased ≠ none) (hseq : r.sequence = some seq) (hwanted : ¬ b.Refuses seq) :
    ∃ place ws, place.toInt32 = seq ∧ ws.Perm ((place, r) :: b.waiting) ∧
      b.pushRecord r = b.settle ws ∧ Lined b ws := by
  obtain ⟨place, ws, hplace, hperm, hpush, hincreasing, hnear⟩ :=
    push_opened hb hclear hopened hwanted r
  have hnumbered : Numbered ws := by
    intro w hw
    rcases List.mem_cons.1 (hperm.subset hw) with rfl | hw
    · exact hplace ▸ hseq
    · exact hnum w hw
  refine ⟨place, ws, hplace, hperm, ?_, hopened, hb.last, hclear, hnumbered, hincreasing, hnear⟩
  rw [pushRecord, hseq]
  exact hpush

theorem Lined.distance_eq (h : Lined b ws) (hw : w ∈ ws) :
    b.distance w.2 = w.1.toInt - b.position.toInt := by
  obtain ⟨last, hlast⟩ := Option.ne_none_iff_exists'.1 h.opened
  obtain ⟨hlow, hhigh⟩ := h.near w hw
  have hdiff := toInt_sub_toInt32 (Int.le_of_lt hlow) hhigh
  rw [← h.last last hlast] at hdiff
  simpa [distance, hlast, h.numbered w hw] using hdiff

theorem Lined.eq_of_place {v : Int64 × Record} (h : Lined b ws) (hv : v ∈ ws) (hw : w ∈ ws)
    (hsame : v.1.toInt = w.1.toInt) : v = w := by
  have hdistinct : (ws.map fun w => w.1.toInt).Nodup := by
    rw [List.Nodup, List.pairwise_map]
    exact h.increasing.imp Int.ne_of_lt
  exact List.inj_on_of_nodup_map hdistinct hv hw hsame

/-- Items in the order of their places are in the order of their distances, of which no two are
equal. -/
theorem Lined.lineUp_eq (h : Lined b ws) (hperm : (ws.map Prod.snd).Perm (r :: b.records)) :
    b.lineUp r = ws.map Prod.snd := by
  let nearer (v w : Record) : Prop := b.distance v ≤ b.distance w
  have : Std.Total nearer := ⟨fun v w => Int.le_total (b.distance v) (b.distance w)⟩
  have : IsTrans Record nearer := ⟨fun _ _ _ => Int.le_trans⟩
  have hsorted : (ws.map Prod.snd).Pairwise nearer := by
    rw [List.pairwise_map]
    refine h.increasing.imp_of_mem fun hv hw hlt => ?_
    change b.distance _ ≤ b.distance _
    rw [h.distance_eq hv, h.distance_eq hw]
    omega
  have hlined := (List.perm_insertionSort nearer (r :: b.records)).trans hperm.symm
  refine List.Perm.eq_of_pairwise (fun x y hx hy hle hge => ?_)
    (List.pairwise_insertionSort nearer (r :: b.records)) hsorted hlined
  obtain ⟨v, hv, rfl⟩ := List.mem_map.1 (hlined.subset hx)
  obtain ⟨w, hw, rfl⟩ := List.mem_map.1 hy
  change b.distance _ ≤ b.distance _ at hle hge
  rw [h.distance_eq hv, h.distance_eq hw] at hle hge
  rw [h.eq_of_place hv hw (by omega)]

/-! ### What settling releases -/

theorem Lined.lt_largest (h : Lined b ws) (hw : w ∈ ws) : w.1.toInt < 9223372036854775807 := by
  have hhigh := (h.near w hw).2
  have hclear := h.clear
  unfold Clear at hclear
  omega

theorem Lined.next_iff (h : Lined b ws) (hw : w ∈ ws) :
    w.1 = b.position + 1 ↔ w.1.toInt = b.position.toInt + 1 := by
  have hlow := (h.near w hw).1
  have hhigh := h.lt_largest hw
  rw [← Int64.toInt_inj, toInt_add_one (by omega)]

/-- A line whose front is not the next in sequence, and for which there is room, stays. -/
theorem Lined.settle_of_gap (h : Lined b (w :: rest)) (hgap : w.1.toInt ≠ b.position.toInt + 1)
    (hroom : rest.length + 1 ≤ b.capacity) :
    b.settle (w :: rest) = ([], { b with waiting := w :: rest }) := by
  have hnext := mt (h.next_iff List.mem_cons_self).1 hgap
  rw [settle, if_neg]
  simpa [h.opened, hnext] using hroom

/-- With the front item of a line there go, if there is room for the others, those at the places
that follow on its own. -/
theorem Lined.settle_of_front (h : Lined b (w :: rest))
    (hfront : w.1.toInt = b.position.toInt + 1 ∨ b.capacity < rest.length + 1)
    (hroom : rest.length ≤ b.capacity) :
    ∃ front back, rest = front ++ back ∧ Successive w.1.toInt front ∧
      b.settle (w :: rest) =
        ((w :: front).map Prod.snd, { b.after (w :: front) with waiting := back }) ∧
      ∀ v later, back = v :: later → v.1.toInt ≠ w.1.toInt + front.length + 1 := by
  have hplaces : ∀ v ∈ w :: rest, v.1.toInt < 9223372036854775807 := fun v hv => h.lt_largest hv
  have hgoes : b.lastReleased = none ∨ w.1 = b.position + 1 ∨ b.capacity < rest.length + 1 :=
    .inr (hfront.imp_left (h.next_iff List.mem_cons_self).2)
  have hfits : ∀ front v back, rest = front ++ v :: back →
      Successive (b.passed w.1).position.toInt front →
      v.1.toInt ≠ (b.passed w.1).position.toInt + front.length + 1 →
      (v :: back).length ≤ (b.passed w.1).capacity := by
    rintro front v back rfl _ _
    rw [List.length_append] at hroom
    change (v :: back).length ≤ b.capacity
    omega
  obtain ⟨front, back, rfl, hsuccessive, hsettle, hstop⟩ :=
    settle_successive (b := b.passed w.1) (Option.some_ne_none _)
      (hplaces w List.mem_cons_self) (fun v hv => hplaces v (List.mem_cons_of_mem w hv)) hfits
  refine ⟨front, back, rfl, hsuccessive, ?_, ?_⟩
  · rw [settle, if_pos hgoes, hsettle]
    rfl
  · rintro v later rfl hnext
    have hposition : ((b.passed w.1).after front).position.toInt = w.1.toInt + front.length :=
      position_after_successive hsuccessive
    have hv := hplaces v (by simp)
    apply (hstop v later rfl).1
    apply Int64.toInt_inj.1
    rw [toInt_add_one (by omega), hposition, hnext]

/-- What stays behind such items is further ahead than the place that follows on theirs. -/
theorem Lined.beyond_front {v : Int64 × Record} (h : Lined b (w :: (front ++ back)))
    (hfront : Successive w.1.toInt front)
    (hstop : ∀ v later, back = v :: later → v.1.toInt ≠ w.1.toInt + front.length + 1)
    (hv : v ∈ back) : w.1.toInt + front.length + 1 < v.1.toInt := by
  obtain ⟨hw, hrest⟩ := List.pairwise_cons.1 h.increasing
  obtain ⟨-, hback, hcross⟩ := List.pairwise_append.1 hrest
  cases back with
  | nil => cases hv
  | cons u later =>
    have hwu := hw u (by simp)
    have hbehind := hfront.lt hwu fun x hx => hcross x hx u List.mem_cons_self
    have hne := hstop u later rfl
    rcases List.mem_cons.1 hv with rfl | hv
    · omega
    · have huv := List.rel_of_pairwise_cons hback hv
      omega

theorem Lined.longestRun (h : Lined b (w :: (front ++ back)))
    (hfront : Successive w.1.toInt front)
    (hstop : ∀ v later, back = v :: later → v.1.toInt ≠ w.1.toInt + front.length + 1) :
    LongestRun w.1.toInt32 ((w :: (front ++ back)).map Prod.snd) ((w :: front).map Prod.snd) := by
  have hsub : w :: front ⊆ w :: (front ++ back) :=
    List.cons_subset_cons w (List.subset_append_left front back)
  refine { subset := List.map_subset Prod.snd hsub, numbers := ?_, ends := ?_ }
  · apply List.ext_getElem
    · simp
    · intro j hj _
      rw [List.length_map, List.length_map] at hj
      have hplace := hfront.run.getElem hj
      have hnumber := h.numbered _ (hsub (List.getElem_mem hj))
      rw [toInt32_eq_numberAt_place (p := w.1) (j := j) (by omega)] at hnumber
      simp only [List.getElem_map, List.getElem_range]
      exact hnumber
  · intro x hx hnumber
    obtain ⟨v, hv, rfl⟩ := List.mem_map.1 hx
    rw [h.numbered v hv, Option.some.injEq, List.length_map] at hnumber
    -- the place behind the run is within reach as well, so its number has that place alone
    obtain ⟨u, hu, hlast⟩ := hfront.exists_mem_run (d := w.1.toInt + front.length) (by omega)
      (Int.le_refl _)
    have hw := h.near w List.mem_cons_self
    have hu := h.near u (hsub hu)
    have hnear := h.near v hv
    unfold reach at hu hnear
    rw [List.length_cons] at hnumber
    have hnext := toInt_eq_of_toInt32_eq_numberAt hnumber (by push_cast; omega)
      (by push_cast; omega)
    push_cast at hnext
    rcases List.mem_append.1 (List.cons_append ▸ hv) with hv | hv
    · have hle := hfront.run.le hv
      rw [List.length_cons] at hle
      omega
    · have hbeyond := h.beyond_front hfront hstop hv
      omega

/-! ### Numbers that are passed over -/

theorem lastReleased_after_cons (b : ReorderBuffer Record) (w : Int64 × Record)
    (front : List (Int64 × Record)) :
    (b.after (w :: front)).lastReleased = some (b.after (w :: front)).position.toInt32 := by
  rcases after_eq b (w :: front) with ⟨hnil, -⟩ | ⟨v, -, -, hafter⟩
  · cases hnil
  · rw [hafter]
    rfl

theorem Lined.in_front_of_passesOver (h : Lined b (w :: (front ++ back)))
    (hfront : Successive w.1.toInt front) (hlast : b.lastReleased = some last)
    (hpush : b.pushRecord r =
      ((w :: front).map Prod.snd, { b.after (w :: front) with waiting := back }))
    (hm : b.PassesOver r m) : 0 < (m - last).toInt ∧ (m - last).toInt < b.distance w.2 := by
  obtain ⟨before, last', hbefore, hlast', hahead, hle, hnone⟩ := hm
  obtain rfl : before = last := Option.some.inj (hbefore.symm.trans hlast)
  rw [hpush] at hlast' hnone
  have hsub : w :: front ⊆ w :: (front ++ back) :=
    List.cons_subset_cons w (List.subset_append_left front back)
  have hposition : (b.after (w :: front)).position.toInt = w.1.toInt + front.length :=
    position_after_successive (b := b.passed w.1) hfront
  have hnumber : last' = (b.after (w :: front)).position.toInt32 :=
    Option.some.inj (hlast'.symm.trans (lastReleased_after_cons b w front))
  have hw := h.near w List.mem_cons_self
  obtain ⟨u, hu, hplace⟩ := hfront.exists_mem_run (d := w.1.toInt + front.length) (by omega)
    (Int.le_refl _)
  have hu := h.near u (hsub hu)
  have hdiff := toInt_sub_toInt32 (p := b.position) (q := (b.after (w :: front)).position)
    (by omega) (by omega)
  rw [← hnumber, ← h.last before hlast] at hdiff
  rw [h.distance_eq List.mem_cons_self]
  refine ⟨hahead, ?_⟩
  by_contra hge
  -- otherwise it is the number of a record that was released
  obtain ⟨v, hv, hsame⟩ := hfront.exists_mem_run (d := b.position.toInt + (m - before).toInt)
    (by omega) (by omega)
  have hvnumber := h.numbered v (hsub hv)
  have hdistance := h.distance_eq (hsub hv)
  simp only [distance, hlast, hvnumber] at hdistance
  have hequal : v.1.toInt32 - before = m - before := Int32.toInt_inj.1 (by omega)
  apply hnone v.2 (List.mem_map_of_mem hv)
  rw [hvnumber, ← Int32.sub_add_cancel v.1.toInt32 before, hequal, Int32.sub_add_cancel]

/-! ### A push -/

/-- The line that a push settles. Its front is the next in sequence exactly if the record pushed is,
since no record that waits is the next. -/
theorem exists_line (hb : b.Ordered) (hclear : b.Clear) (hnum : Numbered b.waiting)
    (hlast : b.lastReleased = some last) (hseq : r.sequence = some seq)
    (hwanted : ¬ b.Refuses seq) :
    ∃ w rest, Lined b (w :: rest) ∧ b.lineUp r = (w :: rest).map Prod.snd ∧
      b.pushRecord r = b.settle (w :: rest) ∧ rest.length = b.waiting.length ∧
      (w.1.toInt = b.position.toInt + 1 ↔ seq = last + 1) ∧
      (seq = last + 1 → w.1.toInt32 = seq) := by
  obtain ⟨place, ws, hplace, hperm, hpush, hlined⟩ :=
    lined_push hb hclear hnum (by simp [hlast]) hseq hwanted
  have hmem : (place, r) ∈ ws := hperm.symm.subset List.mem_cons_self
  have hnext : place.toInt = b.position.toInt + 1 ↔ seq = last + 1 := by
    have hdistance := hlined.distance_eq hmem
    simp only [distance, hlast, hseq] at hdistance
    have hone : (1 : Int32).toInt = 1 := rfl
    have hdiff : seq - last = 1 ↔ seq = last + 1 := by
      rw [Int32.sub_eq_iff_eq_add, Int32.add_comm]
    rw [← hdiff, ← Int32.toInt_inj, hone]
    omega
  cases ws with
  | nil => cases hmem
  | cons w rest =>
    have hlow := (hlined.near w List.mem_cons_self).1
    have hle : w.1.toInt ≤ place.toInt := by
      rcases List.mem_cons.1 hmem with rfl | hmem
      · exact Int.le_refl _
      · exact Int.le_of_lt (List.rel_of_pairwise_cons hlined.increasing hmem)
    have hlength : rest.length = b.waiting.length := by simpa using hperm.length_eq
    refine ⟨w, rest, hlined, hlined.lineUp_eq (hperm.map Prod.snd), hpush, hlength,
      ⟨fun hfront => hnext.1 ?_, fun hnumber => ?_⟩, fun hnumber => ?_⟩
    · rcases List.mem_cons.1 (hperm.subset List.mem_cons_self) with rfl | hwaits
      · exact hfront
      · have hbehind := hb.behindGap w hwaits
        omega
    · have hfollows := hnext.2 hnumber
      omega
    · have hfollows := hnext.2 hnumber
      have hsame : w.1 = place := Int64.toInt_inj.1 (by omega)
      rw [hsame, hplace]

theorem records_settle (b : ReorderBuffer Record) (ws : List (Int64 × Record)) :
    ws.map Prod.snd = (b.settle ws).1 ++ (b.settle ws).2.records := by
  obtain ⟨front, back, rfl, hsettle, -⟩ := b.settle_eq ws
  rw [hsettle, List.map_append]
  rfl

theorem Lined.distance_le (h : Lined b (w :: rest)) {x : Record}
    (hx : x ∈ (w :: rest).map Prod.snd) : b.distance w.2 ≤ b.distance x := by
  obtain ⟨v, hv, rfl⟩ := List.mem_map.1 hx
  rw [h.distance_eq List.mem_cons_self, h.distance_eq hv]
  rcases List.mem_cons.1 hv with rfl | hv
  · exact Int.le_refl _
  · have := List.rel_of_pairwise_cons h.increasing hv
    omega

/-- Nothing leaves a line for which there is room and whose front is not the next in sequence. -/
theorem Lined.gapPolicy_of_gap (h : Lined b (w :: rest))
    (hline : b.lineUp r = (w :: rest).map Prod.snd) (hpush : b.pushRecord r = b.settle (w :: rest))
    (hnext : w.1.toInt = b.position.toInt + 1 ↔ seq = last + 1)
    (hgap : w.1.toInt ≠ b.position.toInt + 1) (hroom : rest.length + 1 ≤ b.capacity) :
    b.GapPolicy r last seq := by
  rw [h.settle_of_gap hgap hroom] at hpush
  have hlength : (b.lineUp r).length = rest.length + 1 := by simp [hline]
  refine { next := fun hseq => absurd (hnext.2 hseq) hgap, room := fun _ _ => by rw [hpush],
           crowded := fun _ hcrowded => by omega, passed := fun m hm => ?_ }
  -- the last one released is the same as before
  obtain ⟨before, last', hbefore, hlast', hahead, hle, -⟩ := hm
  rw [hpush] at hlast'
  obtain rfl : before = last' := Option.some.inj (hbefore.symm.trans hlast')
  rw [Int32.sub_self, Int32.toInt_zero] at hle
  omega

/-- With the front of a line go all whose numbers follow on its own. -/
theorem Lined.gapPolicy_of_front (h : Lined b (w :: rest))
    (hline : b.lineUp r = (w :: rest).map Prod.snd) (hpush : b.pushRecord r = b.settle (w :: rest))
    (hlast : b.lastReleased = some last)
    (hnext : w.1.toInt = b.position.toInt + 1 ↔ seq = last + 1)
    (hnumber : seq = last + 1 → w.1.toInt32 = seq)
    (hgoes : w.1.toInt = b.position.toInt + 1 ∨ b.capacity < rest.length + 1)
    (hroom : rest.length ≤ b.capacity) : b.GapPolicy r last seq := by
  obtain ⟨front, back, rfl, hfront, hsettle, hstop⟩ := h.settle_of_front hgoes hroom
  rw [hsettle] at hpush
  have hlength : (b.lineUp r).length = (front ++ back).length + 1 := by simp [hline]
  have hrun : LongestRun w.1.toInt32 (b.lineUp r) (b.pushRecord r).1 := by
    rw [hline, hpush]
    exact h.longestRun hfront hstop
  refine { next := fun hseq => hnumber hseq ▸ hrun, room := fun hgap hfits => ?_,
           crowded := fun _ _ => ?_, passed := fun m hm => ?_ }
  · have hcrowded := hgoes.resolve_left (mt hnext.1 hgap)
    omega
  · exact ⟨w.2, (front ++ back).map Prod.snd, w.1.toInt32, hline,
      h.numbered w List.mem_cons_self, hrun⟩
  · obtain ⟨hahead, hless⟩ := h.in_front_of_passesOver hfront hlast hpush hm
    have hdistance := h.distance_eq (w := w) List.mem_cons_self
    refine ⟨?_, fun x hx => ?_⟩
    · -- nothing lies between the last one released and the next
      have hcrowded := hgoes.resolve_left (by omega)
      omega
    · have hle := h.distance_le (hline ▸ hx)
      omega

theorem gapPolicy_push (hb : b.Ordered) (hclear : b.Clear) (hnum : Numbered b.waiting)
    (hlast : b.lastReleased = some last) (hseq : r.sequence = some seq)
    (hwanted : ¬ b.Refuses seq) :
    b.lineUp r = (b.pushRecord r).1 ++ (b.pushRecord r).2.records ∧
      (b.lineUp r).length ≤ b.capacity + 1 ∧ b.GapPolicy r last seq := by
  obtain ⟨w, rest, hlined, hline, hpush, hrest, hnext, hnumber⟩ :=
    exists_line hb hclear hnum hlast hseq hwanted
  have hroom : rest.length ≤ b.capacity := hrest ▸ hb.room
  refine ⟨?_, ?_, ?_⟩
  · rw [hline, hpush]
    exact b.records_settle (w :: rest)
  · rw [hline, List.length_map, List.length_cons]
    omega
  · by_cases hgoes : w.1.toInt = b.position.toInt + 1 ∨ b.capacity < rest.length + 1
    · exact hlined.gapPolicy_of_front hline hpush hlast hnext hnumber hgoes hroom
    · obtain ⟨hgap, hfits⟩ := not_or.1 hgoes
      exact hlined.gapPolicy_of_gap hline hpush hnext hgap (Nat.not_lt.1 hfits)

theorem push_first (hb : b.Ordered) (hunopened : b.lastReleased = none)
    (hseq : r.sequence = some seq) :
    b.lineUp r = [r] ∧ (b.pushRecord r).1 = [r] ∧ (b.pushRecord r).2.records = [] := by
  have hpush : b.pushRecord r = ([r], { b.passed seq.toInt64 with waiting := [] }) := by
    rw [pushRecord, hseq]
    exact push_unopened hb hunopened seq r
  rw [hpush, lineUp, records, hb.unopened hunopened]
  exact ⟨rfl, rfl, rfl⟩

/-! ### Runs in which records without a number pass -/

def Operation.numbered : Operation → Bool
  | .push r => r.sequence.isSome
  | .flush => true

/-- Records without a number leave no trace in a buffer. -/
theorem buffer_run_numbered (capacity : Nat) (ops : List Operation) :
    (run capacity (ops.filter Operation.numbered)).buffer = (run capacity ops).buffer := by
  induction ops using List.reverseRecOn with
  | nil => rfl
  | append_singleton ops op ih =>
    rw [List.filter_append, run_concat]
    cases hop : op.numbered with
    | true =>
      rw [List.filter_cons_of_pos hop, List.filter_nil, run_concat]
      cases op with
      | push r =>
        change ((run capacity (ops.filter Operation.numbered)).buffer.pushRecord r).2 = _
        rw [ih]
        rfl
      | flush =>
        change (run capacity (ops.filter Operation.numbered)).buffer.flush.2 = _
        rw [ih]
        rfl
    | false =>
      rw [List.filter_cons_of_neg (by simp [hop]), List.filter_nil, List.append_nil, ih]
      cases op with
      | push r =>
        have hnone : r.sequence = none := by simpa [Operation.numbered] using hop
        change _ = ((run capacity ops).buffer.pushRecord r).2
        rw [pushRecord, hnone]
      | flush => cases hop

/-- What holds of every buffer that at most `2 ^ 31` pushes and flushes lead to. -/
theorem ordered_run (capacity : Nat) {ops : List Operation} (hlength : ops.length ≤ 2147483648) :
    (run capacity ops).buffer.Ordered ∧ (run capacity ops).buffer.Clear ∧
      Numbered (run capacity ops).buffer.waiting ∧
      (run capacity ops).buffer.capacity = max capacity 1 := by
  have hfewer := List.length_filter_le Operation.numbered ops
  have hsound := sound_run capacity (ops.filter Operation.numbered)
    (fun r hr => Option.isSome_iff_ne_none.1 (List.mem_filter.1 hr).2) (by omega)
  rw [← buffer_run_numbered]
  exact ⟨hsound.ordered, clear_of_sound hsound (by omega), hsound.numbered, hsound.capacity_eq⟩

/-- **Which records a push releases.** Take any buffer that at most `2 ^ 31` pushes and flushes lead
to, a record that it takes, and the line of this record and those that wait. What a push of the
record releases is a front part of the line, what waits afterwards is the rest, and the line is at
most one too long. The first record of all is released at once; from then on pushes keep to the
policy for gaps. -/
theorem push_releases_front (capacity : Nat) (ops : List Operation)
    (hlength : ops.length ≤ 2147483648) (hseq : r.sequence = some seq)
    (hwanted : ¬ (run capacity ops).buffer.Unwanted r) :
    let b := (run capacity ops).buffer
    b.capacity = max capacity 1 ∧
      b.lineUp r = (b.pushRecord r).1 ++ (b.pushRecord r).2.records ∧
      (b.lineUp r).length ≤ b.capacity + 1 ∧
      (b.lastReleased = none → (b.pushRecord r).1 = [r]) ∧
      ∀ last, b.lastReleased = some last → b.GapPolicy r last seq := by
  intro b
  obtain ⟨hb, hclear, hnum, hcapacity⟩ := ordered_run capacity hlength
  have hnotRefused : ¬ b.Refuses seq := mt (unwanted_iff_refuses hnum hseq).2 hwanted
  cases hlast : b.lastReleased with
  | none =>
    obtain ⟨hline, hreleased, hrest⟩ := push_first hb hlast hseq
    have hsplit : b.lineUp r = (b.pushRecord r).1 ++ (b.pushRecord r).2.records := by
      rw [hline, hreleased, hrest, List.append_nil]
    refine ⟨hcapacity, hsplit, ?_, fun _ => hreleased, nofun⟩
    rw [hline]
    exact Nat.le_add_left 1 b.capacity
  | some last =>
    obtain ⟨hsplit, hfits, hpolicy⟩ := gapPolicy_push hb hclear hnum hlast hseq hnotRefused
    refine ⟨hcapacity, hsplit, hfits, nofun, ?_⟩
    rintro _ ⟨⟩
    exact hpolicy

/-- A buffer with room for two, in which two records wait across the largest number. A third goes
with the nearest of them, and the number in front of these is passed over. -/
theorem push_releases_front_past_largest :
    let numbered (seq : Int32) : Record := { Record.blank with sequence := some seq }
    let ops : List Operation := [.push (numbered 2147483647), .push Record.blank,
      .push (numbered (-2147483644)), .push (numbered (-2147483647))]
    let r := numbered (-2147483646)
    let b := (run 2 ops).buffer
    ops.length ≤ 2147483648 ∧ r.sequence = some (-2147483646) ∧ ¬ b.Unwanted r ∧
      b.lastReleased = some 2147483647 ∧
      (b.lineUp r).map Record.sequence =
        [some (-2147483647), some (-2147483646), some (-2147483644)] ∧
      (b.pushRecord r).1.map Record.sequence = [some (-2147483647), some (-2147483646)] ∧
      b.PassesOver r (-2147483648) ∧ b.GapPolicy r 2147483647 (-2147483646) := by
  intro numbered ops r b
  have hlength : ops.length ≤ 2147483648 := by decide
  have hlast : b.lastReleased = some 2147483647 := by decide
  have hwaiting : b.records.map Record.sequence = [some (-2147483647), some (-2147483644)] := by
    decide
  have hwanted : ¬ b.Unwanted r := by
    rintro ⟨seq, hseq, ⟨last, hlast', hlate⟩ | ⟨w, hw, hsame⟩⟩
    · obtain rfl := Option.some.inj hseq
      obtain rfl := Option.some.inj (hlast.symm.trans hlast')
      exact absurd hlate (by decide)
    · have hmem := List.mem_map_of_mem (f := Record.sequence) hw
      rw [hwaiting, hsame, ← hseq] at hmem
      exact absurd hmem (by decide)
  obtain ⟨-, -, -, -, hpolicy⟩ := push_releases_front 2 ops hlength (r := r) rfl hwanted
  refine ⟨hlength, rfl, hwanted, hlast, by decide, by decide, ?_, hpolicy 2147483647 hlast⟩
  exact ⟨2147483647, -2147483646, hlast, by decide, by decide, by decide, by decide⟩

end SeisFeed.Delivery.ReorderBuffer
