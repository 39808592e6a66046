import SeisFeed.Proofs.Delivery.ReorderRun
/-!
# Arrivals of a run

The records of a run of sequence numbers arrive in some order, some of them more than once. Of a
number counts the record that arrived first, and later ones are repeats. Numbers are told apart by
their places in the run, as long as it is not longer than half of all numbers, and a buffer into
which everything behind each gap fits releases what lies at successive places.
-/

namespace SeisFeed.Delivery.ReorderBuffer

open Waveform (Record)

/-! ### Arrivals -/

/-- The number at a place in the run of sequence numbers that begins with `first`. -/
def numberAt (first : Int32) (j : Nat) : Int32 :=
  first + Int32.ofNat j

def Arrived (first : Int32) (arrivals : List Record) (j : Nat) : Prop :=
  ∃ r ∈ arrivals, r.sequence = some (numberAt first j)

instance (first : Int32) (arrivals : List Record) (j : Nat) :
    Decidable (Arrived first arrivals j) :=
  inferInstanceAs (Decidable (∃ r ∈ arrivals, _))

/-- The record of a number that arrived first. -/
def firstArrival? (first : Int32) (arrivals : List Record) (j : Nat) : Option Record :=
  arrivals.find? fun r => r.sequence == some (numberAt first j)

/-- Of the first `n` numbers of a run, those that have arrived beyond one that has not. -/
def beyond (first : Int32) (n : Nat) (arrivals : List Record) : List Nat :=
  (List.range n).filter fun j => Arrived first arrivals j ∧ ∃ i < j, ¬ Arrived first arrivals i

def repeatsAfter (seen : List (Option Int32)) : List Record → List Record
  | [] => []
  | r :: rs =>
    if r.sequence ∈ seen then r :: repeatsAfter seen rs else repeatsAfter (r.sequence :: seen) rs

/-- The records whose number an earlier one has. -/
def repeats (arrivals : List Record) : List Record :=
  repeatsAfter [] arrivals

variable {first : Int32} {i j : Nat} {arrivals : List Record} {r : Record}

theorem repeatsAfter_concat (seen : List (Option Int32)) (arrivals : List Record) (r : Record) :
    repeatsAfter seen (arrivals ++ [r]) = repeatsAfter seen arrivals ++
      if r.sequence ∈ seen ∨ ∃ s ∈ arrivals, s.sequence = r.sequence then [r] else [] := by
  induction arrivals generalizing seen with
  | nil => simp [repeatsAfter]
  | cons s arrivals ih =>
    rw [List.cons_append, repeatsAfter, repeatsAfter]
    by_cases hseen : s.sequence ∈ seen
    · have hsame : (r.sequence ∈ seen ∨ ∃ x ∈ s :: arrivals, x.sequence = r.sequence) ↔
          (r.sequence ∈ seen ∨ ∃ x ∈ arrivals, x.sequence = r.sequence) := by
        simp only [List.mem_cons, exists_eq_or_imp]
        constructor
        · rintro (h | h | h)
          · exact .inl h
          · exact .inl (h ▸ hseen)
          · exact .inr h
        · rintro (h | h)
          · exact .inl h
          · exact .inr (.inr h)
      rw [if_pos hseen, if_pos hseen, ih, List.cons_append]
      simp only [hsame]
    · have hsame : (r.sequence ∈ s.sequence :: seen ∨ ∃ x ∈ arrivals, x.sequence = r.sequence) ↔
          (r.sequence ∈ seen ∨ ∃ x ∈ s :: arrivals, x.sequence = r.sequence) := by
        simp only [List.mem_cons, exists_eq_or_imp, eq_comm (a := r.sequence) (b := s.sequence)]
        tauto
      rw [if_neg hseen, if_neg hseen, ih]
      simp only [hsame]

theorem repeats_concat (hr : r.sequence = some (numberAt first j)) :
    repeats (arrivals ++ [r]) =
      repeats arrivals ++ if Arrived first arrivals j then [r] else [] := by
  rw [repeats, repeatsAfter_concat, hr]
  by_cases harrived : Arrived first arrivals j
  · rw [if_pos (.inr harrived), if_pos harrived]
    rfl
  · rw [if_neg (by simpa [Arrived] using harrived), if_neg harrived]
    rfl

theorem arrived_iff : Arrived first arrivals j ↔ ∃ r, firstArrival? first arrivals j = some r := by
  rw [← Option.isSome_iff_exists, firstArrival?, List.find?_isSome]
  simp [Arrived]

theorem sequence_of_firstArrival? (h : firstArrival? first arrivals j = some r) :
    r.sequence = some (numberAt first j) := by
  simpa using List.find?_some h

theorem firstArrival?_concat (first : Int32) (arrivals : List Record) (r : Record) (j : Nat) :
    firstArrival? first (arrivals ++ [r]) j = (firstArrival? first arrivals j).or
      (if r.sequence = some (numberAt first j) then some r else none) := by
  rw [firstArrival?, List.find?_append, firstArrival?]
  congr 1
  by_cases h : r.sequence = some (numberAt first j) <;> simp [h]

theorem firstArrival?_append (h : firstArrival? first arrivals j = some r) (later : List Record) :
    firstArrival? first (arrivals ++ later) j = some r := by
  rw [firstArrival?] at h ⊢
  rw [List.find?_append, h, Option.some_or]

theorem arrived_concat : Arrived first (arrivals ++ [r]) j ↔
    Arrived first arrivals j ∨ r.sequence = some (numberAt first j) := by
  simp [Arrived, or_and_right, exists_or]

/-! ### Numbers and places -/

theorem toInt_numberAt_sub (first : Int32) (hi : i < 2147483648) (hj : j < 2147483648) :
    (numberAt first j - numberAt first i).toInt = (j : Int) - i := by
  have hdiff : numberAt first j - numberAt first i = Int32.ofNat j - Int32.ofNat i := by
    unfold numberAt
    grind
  rw [hdiff, Int32.toInt_sub, Int32.toInt_ofNat_of_lt (by omega),
    Int32.toInt_ofNat_of_lt (by omega)]
  exact Int.bmod_eq_of_le (by omega) (by omega)

theorem numberAt_inj (first : Int32) (hi : i < 2147483648) (hj : j < 2147483648)
    (h : numberAt first i = numberAt first j) : i = j := by
  have hdiff := toInt_numberAt_sub first hi hj
  rw [h, Int32.sub_self, Int32.toInt_zero] at hdiff
  omega

theorem toInt_numberAt_place (p : Int64) (j : Nat) :
    (numberAt p.toInt32 j).toInt = (p.toInt + j).bmod 4294967296 := by
  rw [numberAt, Int32.toInt_add, Int32.toInt_ofNat', Int64.toInt_toInt32, Int.add_bmod_bmod,
    Int.bmod_add_bmod]

/-- From the number of a place the numbers run on as the places behind it do. -/
theorem toInt32_eq_numberAt_place {p q : Int64} (h : q.toInt = p.toInt + j) :
    q.toInt32 = numberAt p.toInt32 j := by
  apply Int32.toInt_inj.1
  rw [toInt_numberAt_place, Int64.toInt_toInt32, h]

/-- Places that are not as far apart as there are numbers are told apart by their numbers. -/
theorem toInt_eq_of_toInt32_eq_numberAt {p q : Int64} (h : q.toInt32 = numberAt p.toInt32 j)
    (hlow : p.toInt + j < q.toInt + 4294967296) (hhigh : q.toInt < p.toInt + j + 4294967296) :
    q.toInt = p.toInt + j := by
  have hsame : q.toInt.bmod 4294967296 = (p.toInt + j).bmod 4294967296 := by
    rw [← toInt_numberAt_place, ← h, Int64.toInt_toInt32]
  have hmod := congrArg (· % ((4294967296 : Nat) : Int)) hsame
  simp only [Int.bmod_emod] at hmod
  omega

theorem toInt32_eq_numberAt {p : Int64} (h : p.toInt = first.toInt + j) :
    p.toInt32 = numberAt first j := by
  rw [← Int32.toInt_toInt64] at h
  rw [toInt32_eq_numberAt_place h, Int32.toInt32_toInt64]

/-! ### Successive places -/

/-- Items at successive places behind `o`. -/
def Successive {α : Type} : Int → List (Int64 × α) → Prop
  | _, [] => True
  | o, w :: ws => w.1.toInt = o + 1 ∧ Successive (o + 1) ws

theorem Successive.le {α : Type} {o : Int} {ws : List (Int64 × α)} (h : Successive o ws)
    {w : Int64 × α} (hw : w ∈ ws) : w.1.toInt ≤ o + ws.length := by
  induction ws generalizing o with
  | nil => exact nomatch hw
  | cons v ws ih =>
    obtain ⟨hv, hws⟩ := h
    rw [List.length_cons]
    rcases List.mem_cons.1 hw with rfl | hw
    · push_cast
      omega
    · have := ih hws hw
      push_cast
      omega

theorem position_after_successive {α : Type} {b : ReorderBuffer α} {ws : List (Int64 × α)}
    (h : Successive b.position.toInt ws) :
    (b.after ws).position.toInt = b.position.toInt + ws.length := by
  induction ws generalizing b with
  | nil => simp
  | cons w ws ih =>
    obtain ⟨hw, hws⟩ := h
    have hpassed : (b.passed w.1).position.toInt = b.position.toInt + 1 := hw
    rw [after_cons, ih (hpassed ▸ hws), hpassed, List.length_cons]
    push_cast
    omega

/-- Where the items behind every gap fit into the buffer, settling releases those that come at
successive places and gives up no gap. -/
theorem settle_successive {α : Type} {b : ReorderBuffer α} {ws : List (Int64 × α)}
    (hopened : b.lastReleased ≠ none) (hposition : b.position.toInt < 9223372036854775807)
    (hplaces : ∀ w ∈ ws, w.1.toInt < 9223372036854775807)
    (hroom : ∀ front w back, ws = front ++ w :: back → Successive b.position.toInt front →
      w.1.toInt ≠ b.position.toInt + front.length + 1 → (w :: back).length ≤ b.capacity) :
    ∃ front back, ws = front ++ back ∧ Successive b.position.toInt front ∧
      b.settle ws = (front.map Prod.snd, { b.after front with waiting := back }) ∧
      ∀ w rest, back = w :: rest →
        w.1 ≠ (b.after front).position + 1 ∧ back.length ≤ b.capacity := by
  induction ws generalizing b with
  | nil => exact ⟨[], [], rfl, trivial, rfl, fun _ _ h => nomatch h⟩
  | cons w ws ih =>
    have hnext : w.1 = b.position + 1 ↔ w.1.toInt = b.position.toInt + 1 := by
      rw [← toInt_add_one hposition, Int64.toInt_inj]
    by_cases hsuccessive : w.1.toInt = b.position.toInt + 1
    · have hpassed : (b.passed w.1).position.toInt = b.position.toInt + 1 := hsuccessive
      have hlater : ∀ front v back, ws = front ++ v :: back →
          Successive (b.passed w.1).position.toInt front →
          v.1.toInt ≠ (b.passed w.1).position.toInt + front.length + 1 →
          (v :: back).length ≤ b.capacity := by
        intro front v back hsplit hfront hgap
        rw [hpassed] at hfront hgap
        refine hroom (w :: front) v back (by rw [hsplit]; rfl) ⟨hsuccessive, hfront⟩ ?_
        rw [List.length_cons]
        push_cast
        omega
      obtain ⟨front, back, rfl, hfront, hsettle, hstop⟩ := ih (b := b.passed w.1) nofun
        (hplaces w List.mem_cons_self) (fun v hv => hplaces v (List.mem_cons_of_mem w hv)) hlater
      refine ⟨w :: front, back, rfl, ⟨hsuccessive, hpassed ▸ hfront⟩, ?_, hstop⟩
      rw [settle, if_pos (.inr (.inl (hnext.2 hsuccessive))), hsettle]
      rfl
    · have hfits := hroom [] w ws rfl trivial (by simpa using hsuccessive)
      refine ⟨[], w :: ws, rfl, trivial, ?_, fun v rest h => ?_⟩
      · have hstay : ¬ (b.lastReleased = none ∨ w.1 = b.position + 1 ∨
            b.capacity < ws.length + 1) := by
          rw [not_or, not_or]
          exact ⟨hopened, mt hnext.1 hsuccessive, Nat.not_lt.2 hfits⟩
        rw [settle, if_neg hstay]
        rfl
      · obtain ⟨rfl, rfl⟩ := List.cons.inj h
        exact ⟨mt hnext.1 hsuccessive, hfits⟩

theorem Successive.lt {α : Type} {o : Int} {ws : List (Int64 × α)} (h : Successive o ws)
    {w : Int64 × α} (hw : o < w.1.toInt) (hws : ∀ v ∈ ws, v.1.toInt < w.1.toInt) :
    o + ws.length < w.1.toInt := by
  induction ws generalizing o with
  | nil => simpa using hw
  | cons v ws ih =>
    obtain ⟨hv, hrest⟩ := h
    have hlt := ih hrest (hv ▸ hws v List.mem_cons_self) fun u hu =>
      hws u (List.mem_cons_of_mem v hu)
    rw [List.length_cons]
    push_cast
    omega

end SeisFeed.Delivery.ReorderBuffer
