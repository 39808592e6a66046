import SeisFeed.Delivery.Reorder
/-!
# Places in a reorder buffer

A place is a count that does not wrap, and its low 32 bits are a sequence number. While places stay
clear of the end of the 64-bit range, a wrapping difference of sequence numbers is a difference of
places, and two sequence numbers that are near the same place are equal only if their places are.
`Ordered` says what a buffer keeps between operations, and `push_eq` and `flush_eq` say once what
an operation can do to it.
-/

namespace SeisFeed.Delivery.ReorderBuffer

variable {α : Type}

/-- How far apart two sequence numbers can be for one to count as ahead of the other. -/
def reach : Int := 2147483648

theorem toInt_sub_toInt32 {p q : Int64} (hle : p.toInt ≤ q.toInt)
    (hlt : q.toInt < p.toInt + reach) : (q.toInt32 - p.toInt32).toInt = q.toInt - p.toInt := by
  have hdiff : (q - p).toInt = q.toInt - p.toInt := by
    rw [Int64.toInt_sub]
    unfold reach at hlt
    exact Int.bmod_eq_of_le (by omega) (by omega)
  rw [← Int64.toInt32_sub, Int64.toInt_toInt32, hdiff]
  unfold reach at hlt
  exact Int.bmod_eq_of_le (by omega) (by omega)

/-- Of the places ahead of one place and within its reach, no two have the same sequence number. -/
theorem toInt32_inj_of_near {o p q : Int64} (hp : o.toInt < p.toInt)
    (hp' : p.toInt < o.toInt + reach) (hq : o.toInt < q.toInt) (hq' : q.toInt < o.toInt + reach)
    (h : p.toInt32 = q.toInt32) : p = q := by
  have hpo := toInt_sub_toInt32 (Int.le_of_lt hp) hp'
  have hqo := toInt_sub_toInt32 (Int.le_of_lt hq) hq'
  rw [h] at hpo
  exact Int64.toInt_inj.1 (by omega)

theorem toInt_add_one {p : Int64} (h : p.toInt < 9223372036854775807) :
    (p + 1).toInt = p.toInt + 1 := by
  have hlow := p.le_toInt
  rw [Int64.toInt_add, Int64.toInt_one]
  exact Int.bmod_eq_of_le (by omega) (by omega)

/-- Between operations, what waits lies ahead of the last item released and within reach of it, in
order of its places, behind a gap, and there is no more of it than the capacity. -/
structure Ordered (b : ReorderBuffer α) : Prop where
  unopened : b.lastReleased = none → b.waiting = []
  last : ∀ seq, b.lastReleased = some seq → seq = b.position.toInt32
  increasing : b.waiting.Pairwise fun v w => v.1.toInt < w.1.toInt
  behindGap : ∀ w ∈ b.waiting, b.position.toInt + 1 < w.1.toInt
  near : ∀ w ∈ b.waiting, w.1.toInt < b.position.toInt + reach
  room : b.waiting.length ≤ b.capacity

/-- Another sequence number still has a place in the 64-bit range. -/
def Clear (b : ReorderBuffer α) : Prop :=
  b.position.toInt + reach ≤ 9223372036854775807

/-- A sequence number that a buffer does not take: it is not ahead, or it waits already. -/
def Refuses (b : ReorderBuffer α) (seq : Int32) : Prop :=
  (∃ last, b.lastReleased = some last ∧ seq - last ≤ 0) ∨ ∃ w ∈ b.waiting, w.1.toInt32 = seq

theorem ordered_new (capacity : Nat) : (new capacity : ReorderBuffer α).Ordered where
  unopened _ := rfl
  last _ h := nomatch h
  increasing := .nil
  behindGap _ h := nomatch h
  near _ h := nomatch h
  room := Nat.zero_le _

theorem ordered_passed (b : ReorderBuffer α) (place : Int64) :
    ({ b.passed place with waiting := [] } : ReorderBuffer α).Ordered where
  unopened h := nomatch h
  last _ h := (Option.some.inj h).symm
  increasing := .nil
  behindGap _ h := nomatch h
  near _ h := nomatch h
  room := Nat.zero_le _

/-! ### Passing places -/

/-- The buffer once items have been released one after the other. -/
def after (b : ReorderBuffer α) (front : List (Int64 × α)) : ReorderBuffer α :=
  front.foldl (fun b w => b.passed w.1) b

@[simp] theorem after_nil (b : ReorderBuffer α) : b.after [] = b := rfl

@[simp] theorem after_cons (b : ReorderBuffer α) (w : Int64 × α) (front : List (Int64 × α)) :
    b.after (w :: front) = (b.passed w.1).after front := rfl

@[simp] theorem after_concat (b : ReorderBuffer α) (front : List (Int64 × α)) (w : Int64 × α) :
    b.after (front ++ [w]) = b.passed w.1 := by
  induction front generalizing b with
  | nil => rfl
  | cons v front ih => exact ih (b.passed v.1)

@[simp] theorem capacity_after (b : ReorderBuffer α) (front : List (Int64 × α)) :
    (b.after front).capacity = b.capacity := by
  induction front generalizing b with
  | nil => rfl
  | cons v front ih => exact ih (b.passed v.1)

/-- A buffer stands at the place of the last item released, or has not moved. -/
theorem after_eq (b : ReorderBuffer α) (front : List (Int64 × α)) :
    front = [] ∧ b.after front = b ∨
      ∃ w ∈ front, front.getLast? = some w ∧ b.after front = b.passed w.1 := by
  rcases List.eq_nil_or_concat front with rfl | ⟨init, w, rfl⟩
  · exact .inl ⟨rfl, rfl⟩
  · rw [List.concat_eq_append]
    exact .inr ⟨w, by simp, by simp, after_concat b init w⟩

/-! ### The place of a new item -/

theorem place?_eq_none_iff {b : ReorderBuffer α} {seq : Int32} :
    b.place? seq = none ↔ ∃ last, b.lastReleased = some last ∧ seq - last ≤ 0 := by
  cases h : b.lastReleased <;> simp [place?, h]

/-- A number that is ahead has a place ahead of the last one released, within reach of it. -/
theorem place?_spec {b : ReorderBuffer α} {seq : Int32} {place : Int64} (hb : b.Ordered)
    (hclear : b.Clear) (hopened : b.lastReleased ≠ none) (h : b.place? seq = some place) :
    place.toInt32 = seq ∧ b.position.toInt < place.toInt ∧
      place.toInt < b.position.toInt + reach := by
  obtain ⟨last, hlast⟩ := Option.ne_none_iff_exists'.1 hopened
  simp only [place?, hlast, Option.ite_none_left_eq_some, Option.some.injEq] at h
  obtain ⟨hahead, rfl⟩ := h
  have hpositive : 0 < (seq - last).toInt := by
    rw [Int32.le_iff_toInt_le] at hahead
    simpa using hahead
  have hbound := (seq - last).toInt_lt
  have hlow := b.position.le_toInt
  have hplace : (b.position + (seq - last).toInt64).toInt =
      b.position.toInt + (seq - last).toInt := by
    rw [Int64.toInt_add, Int32.toInt_toInt64]
    unfold Clear reach at hclear
    exact Int.bmod_eq_of_le (by omega) (by omega)
  refine ⟨?_, by omega, by unfold reach; omega⟩
  rw [Int64.toInt32_add, Int32.toInt32_toInt64, ← hb.last last hlast]
  rw [Int32.add_comm]
  exact Int32.sub_add_cancel seq last

theorem place?_unopened {b : ReorderBuffer α} (hb : b.lastReleased = none) (seq : Int32) :
    b.place? seq = some seq.toInt64 := by
  simp [place?, hb]

theorem insert_perm (place : Int64) (item : α) (ws : List (Int64 × α)) :
    (insert place item ws).Perm ((place, item) :: ws) := by
  induction ws with
  | nil => exact .refl _
  | cons w ws ih =>
    rw [insert]
    split
    · exact .refl _
    · exact (ih.cons w).trans (.swap _ _ _)

theorem insert_increasing {place : Int64} (item : α) {ws : List (Int64 × α)}
    (hws : ws.Pairwise fun v w => v.1.toInt < w.1.toInt) (hfree : place ∉ ws.map Prod.fst) :
    (insert place item ws).Pairwise fun v w => v.1.toInt < w.1.toInt := by
  induction ws with
  | nil => simp [insert]
  | cons w ws ih =>
    obtain ⟨hw, hws⟩ := List.pairwise_cons.1 hws
    obtain ⟨hne, hfree⟩ : place ≠ w.1 ∧ place ∉ ws.map Prod.fst := by simpa using hfree
    rw [insert]
    split
    · next hlt =>
      rw [Int64.lt_iff_toInt_lt] at hlt
      refine List.pairwise_cons.2 ⟨fun v hv => ?_, List.pairwise_cons.2 ⟨hw, hws⟩⟩
      rcases List.mem_cons.1 hv with rfl | hv
      · exact hlt
      · exact Int.lt_trans hlt (hw v hv)
    · next hge =>
      rw [Int64.lt_iff_toInt_lt] at hge
      have hlt : w.1.toInt < place.toInt := by
        have := mt Int64.toInt_inj.1 hne
        omega
      refine List.pairwise_cons.2 ⟨fun v hv => ?_, ih hws hfree⟩
      rcases List.mem_cons.1 ((insert_perm place item ws).subset hv) with rfl | hv
      · exact hlt
      · exact hw v hv

/-! ### What an operation does -/

theorem settle_eq (b : ReorderBuffer α) (ws : List (Int64 × α)) :
    ∃ front back, ws = front ++ back ∧
      b.settle ws = (front.map Prod.snd, { b.after front with waiting := back }) ∧
      ∀ w rest, back = w :: rest → (b.after front).lastReleased ≠ none ∧
        w.1 ≠ (b.after front).position + 1 ∧ back.length ≤ b.capacity := by
  induction ws generalizing b with
  | nil => exact ⟨[], [], rfl, rfl, fun _ _ h => nomatch h⟩
  | cons w ws ih =>
    obtain ⟨place, item⟩ := w
    rw [settle]
    split
    · obtain ⟨front, back, rfl, hsettle, hback⟩ := ih (b.passed place)
      exact ⟨(place, item) :: front, back, rfl, by simp [hsettle], hback⟩
    · next hstay =>
      obtain ⟨hopened, hgap, hroom⟩ : b.lastReleased ≠ none ∧ place ≠ b.position + 1 ∧
          ¬ b.capacity < ws.length + 1 := by simpa only [not_or] using hstay
      refine ⟨[], (place, item) :: ws, rfl, rfl, fun w rest h => ?_⟩
      obtain ⟨rfl, rfl⟩ := List.cons.inj h
      exact ⟨hopened, hgap, Nat.not_lt.1 hroom⟩

/-- What releasing the items of `front` and leaving those of `back` means for a buffer: the items
leave in order, ahead of all that left before, and the buffer is again as it is between
operations. -/
structure Releases (b : ReorderBuffer α) (front back : List (Int64 × α)) : Prop where
  spaced : front.Pairwise fun v w => v.1.toInt < w.1.toInt ∧ w.1.toInt < v.1.toInt + reach
  ahead : b.lastReleased ≠ none →
    ∀ w ∈ front, b.position.toInt < w.1.toInt ∧ w.1.toInt < b.position.toInt + reach
  opening : b.lastReleased = none → ∀ w ∈ front, w.1.toInt < reach
  ordered : ({ b.after front with waiting := back } : ReorderBuffer α).Ordered

theorem spaced_of_near {o : Int} {ws : List (Int64 × α)}
    (hws : ws.Pairwise fun v w => v.1.toInt < w.1.toInt)
    (hnear : ∀ w ∈ ws, o < w.1.toInt ∧ w.1.toInt < o + reach) :
    ws.Pairwise fun v w => v.1.toInt < w.1.toInt ∧ w.1.toInt < v.1.toInt + reach := by
  refine hws.imp_of_mem fun hv hw hlt => ⟨hlt, ?_⟩
  have hv := hnear _ hv
  have hw := hnear _ hw
  omega

/-- Where a buffer that has released something stands: not behind its old place, in front of all
that is still to come and within reach of it. -/
theorem position_after {b : ReorderBuffer α} {front back : List (Int64 × α)}
    (hws : (front ++ back).Pairwise fun v w => v.1.toInt < w.1.toInt)
    (hnear : ∀ w ∈ front ++ back, b.position.toInt < w.1.toInt ∧
      w.1.toInt < b.position.toInt + reach) :
    b.position.toInt ≤ (b.after front).position.toInt ∧
      (b.after front).position.toInt < b.position.toInt + reach ∧
      ∀ w ∈ back, (b.after front).position.toInt < w.1.toInt := by
  rcases after_eq b front with ⟨rfl, hafter⟩ | ⟨v, hv, _, hafter⟩
  · rw [hafter]
    exact ⟨Int.le_refl _, by unfold reach; omega, fun w hw => (hnear w hw).1⟩
  · rw [hafter]
    have hv' := hnear v (List.mem_append_left back hv)
    exact ⟨Int.le_of_lt hv'.1, hv'.2, fun w hw => (List.pairwise_append.1 hws).2.2 v hv w hw⟩

theorem releases_of_settle {b : ReorderBuffer α} {front back : List (Int64 × α)} (hb : b.Ordered)
    (hclear : b.Clear) (hopened : b.lastReleased ≠ none)
    (hws : (front ++ back).Pairwise fun v w => v.1.toInt < w.1.toInt)
    (hnear : ∀ w ∈ front ++ back, b.position.toInt < w.1.toInt ∧
      w.1.toInt < b.position.toInt + reach)
    (hstop : ∀ w rest, back = w :: rest → w.1 ≠ (b.after front).position + 1 ∧
      back.length ≤ b.capacity) : b.Releases front back := by
  obtain ⟨hfront, hback, -⟩ := List.pairwise_append.1 hws
  have hnearFront : ∀ w ∈ front, _ := fun w hw => hnear w (List.mem_append_left back hw)
  obtain ⟨hle, hlt, hahead⟩ := position_after hws hnear
  refine ⟨spaced_of_near hfront hnearFront, fun _ => hnearFront, fun h => absurd h hopened, ?_⟩
  refine { unopened := fun h => ?_, last := fun seq h => ?_, increasing := hback,
           behindGap := fun w hw => ?_, near := fun w hw => ?_, room := ?_ }
  · rcases after_eq b front with ⟨_, hafter⟩ | ⟨v, _, _, hafter⟩
    · exact absurd (hafter ▸ h) hopened
    · rw [hafter] at h
      exact nomatch h
  · rcases after_eq b front with ⟨_, hafter⟩ | ⟨v, _, _, hafter⟩
    · rw [hafter] at h ⊢
      exact hb.last seq h
    · rw [hafter] at h ⊢
      exact (Option.some.inj h).symm
  · -- the nearest that stays is not the next, and the others are behind it
    have hnext : ((b.after front).position + 1).toInt = (b.after front).position.toInt + 1 := by
      unfold Clear at hclear
      exact toInt_add_one (by omega)
    cases back with
    | nil => exact nomatch hw
    | cons v rest =>
      have hv := hahead v List.mem_cons_self
      have hgap := mt Int64.toInt_inj.1 (hstop v rest rfl).1
      rw [hnext] at hgap
      have hvw : v.1.toInt ≤ w.1.toInt := by
        rcases List.mem_cons.1 hw with rfl | hw
        · exact Int.le_refl _
        · exact Int.le_of_lt ((List.pairwise_cons.1 hback).1 w hw)
      show (b.after front).position.toInt + 1 < w.1.toInt
      omega
  · have := (hnear w (List.mem_append_right front hw)).2
    show w.1.toInt < (b.after front).position.toInt + reach
    omega
  · rw [show ({ b.after front with waiting := back } : ReorderBuffer α).capacity = b.capacity from
      capacity_after b front]
    cases back with
    | nil => exact Nat.zero_le _
    | cons v rest => exact (hstop v rest rfl).2

theorem push_refused {b : ReorderBuffer α} {seq : Int32} (hb : b.Ordered) (hclear : b.Clear)
    (h : b.Refuses seq) (item : α) : b.push seq item = ([], b) := by
  cases hplace : b.place? seq with
  | none => simp [push, hplace]
  | some place =>
    rcases h with hlate | ⟨w, hw, hseq⟩
    · exact absurd (place?_eq_none_iff.2 hlate) (by simp [hplace])
    · have hopened : b.lastReleased ≠ none := fun h => by simp [hb.unopened h] at hw
      obtain ⟨hplaceSeq, hlow, hhigh⟩ := place?_spec hb hclear hopened hplace
      have hgap := hb.behindGap w hw
      have hsame : w.1 = place :=
        toInt32_inj_of_near (by omega) (hb.near w hw) hlow hhigh (hseq.trans hplaceSeq.symm)
      have htaken : place ∈ b.waiting.map Prod.fst := List.mem_map.2 ⟨w, hw, hsame⟩
      simp [push, hplace, htaken]

theorem push_unopened {b : ReorderBuffer α} (hb : b.Ordered) (hunopened : b.lastReleased = none)
    (seq : Int32) (item : α) :
    b.push seq item = ([item], { b.passed seq.toInt64 with waiting := [] }) := by
  simp [push, place?_unopened hunopened, hb.unopened hunopened, insert, settle, hunopened]

/-- A push of a number that is not refused, once the run is open, puts its item among those that
wait and settles them. -/
theorem push_opened {b : ReorderBuffer α} {seq : Int32} (hb : b.Ordered) (hclear : b.Clear)
    (hopened : b.lastReleased ≠ none) (h : ¬ b.Refuses seq) (item : α) :
    ∃ place ws, place.toInt32 = seq ∧ ws.Perm ((place, item) :: b.waiting) ∧
      b.push seq item = b.settle ws ∧ (ws.Pairwise fun v w => v.1.toInt < w.1.toInt) ∧
      ∀ w ∈ ws, b.position.toInt < w.1.toInt ∧ w.1.toInt < b.position.toInt + reach := by
  obtain ⟨hnotLate, hnotTaken⟩ := not_or.1 h
  obtain ⟨place, hplace⟩ := Option.ne_none_iff_exists'.1 (mt place?_eq_none_iff.1 hnotLate)
  obtain ⟨hseq, hlow, hhigh⟩ := place?_spec hb hclear hopened hplace
  have hfree : place ∉ b.waiting.map Prod.fst := by
    intro htaken
    obtain ⟨w, hw, hsame⟩ := List.mem_map.1 htaken
    exact hnotTaken ⟨w, hw, hsame ▸ hseq⟩
  have hperm := insert_perm place item b.waiting
  refine ⟨place, insert place item b.waiting, hseq, hperm, ?_,
    insert_increasing item hb.increasing hfree, fun w hw => ?_⟩
  · simp [push, hplace, hfree]
  · rcases List.mem_cons.1 (hperm.subset hw) with rfl | hw
    · exact ⟨hlow, hhigh⟩
    · have := hb.behindGap w hw
      exact ⟨by omega, hb.near w hw⟩

/-- A push of any other number finds a place for its item and releases the front of what waits
then. -/
theorem push_eq {b : ReorderBuffer α} {seq : Int32} (hb : b.Ordered) (hclear : b.Clear)
    (h : ¬ b.Refuses seq) (item : α) :
    ∃ place front back, place.toInt32 = seq ∧ (front ++ back).Perm ((place, item) :: b.waiting) ∧
      b.push seq item = (front.map Prod.snd, { b.after front with waiting := back }) ∧
      b.Releases front back := by
  by_cases hopened : b.lastReleased = none
  · refine ⟨seq.toInt64, [(seq.toInt64, item)], [], Int32.toInt32_toInt64 seq, ?_,
      push_unopened hb hopened seq item, ?_⟩
    · simp [hb.unopened hopened]
    · refine ⟨by simp, fun h => absurd hopened h, fun _ w hw => ?_, ordered_passed b _⟩
      have := seq.toInt_lt
      rw [List.mem_singleton.1 hw, Int32.toInt_toInt64]
      unfold reach
      omega
  · obtain ⟨place, ws, hseq, hperm, hpush, hincreasing, hnear⟩ :=
      push_opened hb hclear hopened h item
    obtain ⟨front, back, rfl, hsettle, hstop⟩ := settle_eq b ws
    exact ⟨place, front, back, hseq, hperm, hpush.trans hsettle,
      releases_of_settle hb hclear hopened hincreasing hnear fun w rest h => (hstop w rest h).2⟩

theorem flush_eq {b : ReorderBuffer α} (hb : b.Ordered) (hclear : b.Clear) :
    b.flush = (b.waiting.map Prod.snd, { b.after b.waiting with waiting := [] }) ∧
      b.Releases b.waiting [] := by
  constructor
  · rcases List.eq_nil_or_concat b.waiting with hwaiting | ⟨init, w, hwaiting⟩
    · rw [flush, hwaiting]
      cases b
      simp_all
    · rw [flush, hwaiting]
      simp
  · by_cases hopened : b.lastReleased = none
    · have hwaiting := hb.unopened hopened
      rw [hwaiting]
      refine ⟨.nil, fun _ _ h => (nomatch h), fun _ _ h => (nomatch h), ?_⟩
      exact { hb with
        unopened := fun _ => rfl
        increasing := .nil
        behindGap := fun _ h => nomatch h
        near := fun _ h => nomatch h
        room := Nat.zero_le _ }
    · refine releases_of_settle hb hclear hopened ?_ (fun w hw => ?_) fun _ _ h => nomatch h
      · rw [List.append_nil]
        exact hb.increasing
      · rw [List.append_nil] at hw
        have := hb.behindGap w hw
        exact ⟨by omega, hb.near w hw⟩

end SeisFeed.Delivery.ReorderBuffer
