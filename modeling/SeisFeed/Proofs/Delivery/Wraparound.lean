import SeisFeed.Proofs.Delivery.ReorderRun
/-!
# Where sequence numbers wrap

A reorder buffer sees nothing of a sequence number but its distance from others, so it is all the
same to it where the numbers wrap. Two runs whose numbers differ by one offset throughout go side by
side: their places differ by an offset as well, found when the first number arrives, and every
decision is about a difference of places. Only the order of places is not, and that is kept because
both runs stay clear of the end of their range.
-/

namespace SeisFeed.Delivery.ReorderBuffer

open Waveform (Record)

/-! ### Runs and offsets -/

/-- A record with an offset added to its sequence number, if it has one. -/
def shiftRecord (d : Int32) (r : Record) : Record :=
  { r with sequence := r.sequence.map (· + d) }

def Operation.shift (d : Int32) : Operation → Operation
  | .push r => .push (shiftRecord d r)
  | .flush => .flush

def perform (b : ReorderBuffer Record) : Operation → List Record × ReorderBuffer Record
  | .push r => b.pushRecord r
  | .flush => b.flush

/-- What an operation shows to the outside: the records released, how many wait after it, and the
number of the last one released. -/
structure Showing where
  released : List Record
  waiting : Nat
  lastReleased : Option Int32

def Showing.shift (d : Int32) (x : Showing) : Showing :=
  ⟨x.released.map (shiftRecord d), x.waiting, x.lastReleased.map (· + d)⟩

def Showing.of : List Record × ReorderBuffer Record → Showing
  | (released, b) => ⟨released, b.waiting.length, b.lastReleased⟩

/-- What the operations of a run show, one after the other. -/
def trace (b : ReorderBuffer Record) : List Operation → List Showing
  | [] => []
  | op :: ops => Showing.of (b.perform op) :: trace (b.perform op).2 ops

def moved (e : Int64) (w : Int64 × Record) : Int64 × Record :=
  (w.1 + e, shiftRecord e.toInt32 w.2)

/-- The buffer with an offset added to all its places, and to the sequence numbers with them. -/
def shift (e : Int64) (b : ReorderBuffer Record) : ReorderBuffer Record where
  capacity := b.capacity
  waiting := b.waiting.map (moved e)
  lastReleased := b.lastReleased.map (· + e.toInt32)
  position := b.position + e

variable {b b' : ReorderBuffer Record} {d seq : Int32} {e place : Int64} {r : Record}

/-! ### One operation -/

theorem shift_passed (b : ReorderBuffer Record) (e place : Int64) :
    (b.shift e).passed (place + e) = (b.passed place).shift e := by
  simp [shift, passed, Int64.toInt32_add]

theorem settle_shift (b : ReorderBuffer Record) (e : Int64) (ws : List (Int64 × Record)) :
    (b.shift e).settle (ws.map (moved e)) =
      ((b.settle ws).1.map (shiftRecord e.toInt32), (b.settle ws).2.shift e) := by
  induction ws generalizing b with
  | nil => rfl
  | cons w ws ih =>
    obtain ⟨place, r⟩ := w
    have hnext : place + e = b.position + e + 1 ↔ place = b.position + 1 := by grind
    have hreasons : ((b.shift e).lastReleased = none ∨ place + e = (b.shift e).position + 1 ∨
        (b.shift e).capacity < (ws.map (moved e)).length + 1) ↔
        (b.lastReleased = none ∨ place = b.position + 1 ∨ b.capacity < ws.length + 1) := by
      simp [shift, hnext]
    rw [List.map_cons, moved, settle, settle]
    simp only [hreasons]
    split
    · rw [shift_passed, ih]
      rfl
    · rfl

theorem insert_shift {ws : List (Int64 × Record)}
    (horder : ∀ w ∈ ws, place + e < w.1 + e ↔ place < w.1) (r : Record) :
    insert (place + e) (shiftRecord e.toInt32 r) (ws.map (moved e)) =
      (insert place r ws).map (moved e) := by
  induction ws with
  | nil => rfl
  | cons w ws ih =>
    have hfirst := horder w List.mem_cons_self
    have hrest := ih fun v hv => horder v (List.mem_cons_of_mem w hv)
    rw [List.map_cons, moved, insert, insert]
    simp only [hfirst]
    split
    · rfl
    · rw [List.map_cons, hrest]
      rfl

theorem place?_shift (hopened : b.lastReleased ≠ none) (e : Int64) (seq : Int32) :
    (b.shift e).place? (seq + e.toInt32) = (b.place? seq).map (· + e) := by
  obtain ⟨last, hlast⟩ := Option.ne_none_iff_exists'.1 hopened
  have hdistance : seq + e.toInt32 - (last + e.toInt32) = seq - last := by grind
  have hplace : b.position + e + (seq - last).toInt64 = b.position + (seq - last).toInt64 + e := by
    grind
  simp only [place?, shift, hlast, Option.map_some, hdistance, hplace]
  split <;> rfl

theorem mem_places_shift (e place : Int64) (ws : List (Int64 × Record)) :
    place + e ∈ (ws.map (moved e)).map Prod.fst ↔ place ∈ ws.map Prod.fst := by
  simp [moved, Int64.add_left_inj]

theorem add_lt_add_iff_of_near (hclear : (b.shift e).Clear) {p q : Int64}
    (hp : b.position.toInt < p.toInt) (hp' : p.toInt < b.position.toInt + reach)
    (hq : b.position.toInt < q.toInt) (hq' : q.toInt < b.position.toInt + reach) :
    p + e < q + e ↔ p < q := by
  have hmoved : ∀ x : Int64, b.position.toInt < x.toInt → x.toInt < b.position.toInt + reach →
      (x + e).toInt = (b.position + e).toInt + (x.toInt - b.position.toInt) := by
    intro x hx hx'
    have hsum : x + e = b.position + e + (x - b.position) := by grind
    have hdiff : (x - b.position).toInt = x.toInt - b.position.toInt := by
      rw [Int64.toInt_sub]
      unfold reach at hx'
      exact Int.bmod_eq_of_le (by omega) (by omega)
    have hclear : (b.position + e).toInt + reach ≤ 9223372036854775807 := hclear
    have hlow := (b.position + e).le_toInt
    rw [hsum, Int64.toInt_add, hdiff]
    unfold reach at hx' hclear
    exact Int.bmod_eq_of_le (by omega) (by omega)
  rw [Int64.lt_iff_toInt_lt, Int64.lt_iff_toInt_lt, hmoved p hp hp', hmoved q hq hq']
  omega

theorem push_shift (hb : b.Ordered) (hclear : b.Clear) (hclear' : (b.shift e).Clear)
    (hopened : b.lastReleased ≠ none) (seq : Int32) (r : Record) :
    (b.shift e).push (seq + e.toInt32) (shiftRecord e.toInt32 r) =
      ((b.push seq r).1.map (shiftRecord e.toInt32), (b.push seq r).2.shift e) := by
  rw [push, push, place?_shift hopened]
  cases hplace : b.place? seq with
  | none => rfl
  | some place =>
    obtain ⟨-, hlow, hhigh⟩ := place?_spec hb hclear hopened hplace
    have horder : ∀ w ∈ b.waiting, place + e < w.1 + e ↔ place < w.1 := by
      intro w hw
      have hgap := hb.behindGap w hw
      exact add_lt_add_iff_of_near hclear' hlow hhigh (by omega) (hb.near w hw)
    have htaken := mem_places_shift e place b.waiting
    have hwaiting : (b.shift e).waiting = b.waiting.map (moved e) := rfl
    simp only [Option.map_some, hwaiting, htaken, insert_shift horder, settle_shift]
    split <;> rfl

theorem flush_shift (b : ReorderBuffer Record) (e : Int64) :
    (b.shift e).flush = (b.flush.1.map (shiftRecord e.toInt32), b.flush.2.shift e) := by
  have hreleased : (b.shift e).waiting.map Prod.snd =
      (b.waiting.map Prod.snd).map (shiftRecord e.toInt32) := by
    simp [shift, moved]
  have hlast : (b.shift e).waiting.getLast? = b.waiting.getLast?.map (moved e) :=
    List.getLast?_map
  rw [flush, flush, hreleased, hlast]
  cases b.waiting.getLast? with
  | none => rfl
  | some w =>
    show (_, _) = (_, _)
    rw [Option.map_some, moved]
    dsimp only
    rw [shift_passed]
    rfl

/-! ### Two runs side by side -/

/-- A buffer after some operations, as far from the ends of its range as these allow. -/
structure Within (b : ReorderBuffer Record) (count : Nat) : Prop where
  ordered : b.Ordered
  position_le : b.position.toInt ≤ count * 2147483647

theorem Within.perform {count : Nat} (hb : b.Within count) (hcount : count < 2147483648)
    (op : Operation) : (b.perform op).2.Within (count + 1) := by
  have hposition := hb.position_le
  have hclear : b.Clear := clear_of_position_le hposition (Nat.le_of_lt hcount)
  have hsame : b.Within (count + 1) := ⟨hb.ordered, by push_cast; omega⟩
  cases op with
  | push r =>
    show (b.pushRecord r).2.Within (count + 1)
    rw [pushRecord]
    split
    · exact hsame
    · next seq _ =>
      by_cases hrefuses : b.Refuses seq
      · rw [push_refused hb.ordered hclear hrefuses]
        exact hsame
      · obtain ⟨_, front, back, _, _, heq, hrel⟩ := push_eq hb.ordered hclear hrefuses r
        rw [heq]
        exact ⟨hrel.ordered, position_le_of_releases hrel hposition⟩
  | flush =>
    obtain ⟨heq, hrel⟩ := flush_eq hb.ordered hclear
    show b.flush.2.Within (count + 1)
    rw [heq]
    exact ⟨hrel.ordered, position_le_of_releases hrel hposition⟩

/-- The buffers of two runs whose numbers differ by an offset: they are alike until the first number
arrives, and from then on their places differ by an offset of which this one is the low part. -/
inductive Shifted (d : Int32) (b : ReorderBuffer Record) : ReorderBuffer Record → Prop
  | unopened (hlast : b.lastReleased = none) : Shifted d b b
  | moved {e : Int64} (he : e.toInt32 = d) : Shifted d b (b.shift e)

theorem Shifted.showing (h : Shifted d b b') :
    b'.capacity = b.capacity ∧ b'.waiting.length = b.waiting.length ∧
      b'.lastReleased = b.lastReleased.map (· + d) := by
  cases h with
  | unopened hlast => simp [hlast]
  | moved he => simp [shift, he]

/-- Where the run opens, the distance of the two first places becomes the offset. -/
theorem shifted_push_unopened (h : Shifted d b b') (hb : b.Ordered) (hb' : b'.Ordered)
    (hlast : b.lastReleased = none) (seq : Int32) (r : Record) :
    (b'.push (seq + d) (shiftRecord d r)).1 = (b.push seq r).1.map (shiftRecord d) ∧
      Shifted d (b.push seq r).2 (b'.push (seq + d) (shiftRecord d r)).2 := by
  obtain ⟨hcapacity, -, hlast'⟩ := h.showing
  rw [hlast, Option.map_none] at hlast'
  rw [push_unopened hb hlast, push_unopened hb' hlast']
  refine ⟨rfl, ?_⟩
  let e : Int64 := (seq + d).toInt64 - seq.toInt64
  have he : e.toInt32 = d := by
    rw [Int64.toInt32_sub, Int32.toInt32_toInt64, Int32.toInt32_toInt64]
    grind
  have hplace : (seq + d).toInt64 = seq.toInt64 + e := by grind
  have hshift : ({ b'.passed (seq + d).toInt64 with waiting := [] } : ReorderBuffer Record) =
      ({ b.passed seq.toInt64 with waiting := [] } : ReorderBuffer Record).shift e := by
    rw [hplace]
    simp [shift, passed, hcapacity, Int64.toInt32_add]
  rw [hshift]
  exact .moved he

theorem shifted_perform (h : Shifted d b b') (hb : b.Ordered) (hclear : b.Clear) (hb' : b'.Ordered)
    (hclear' : b'.Clear) (op : Operation) :
    (b'.perform (op.shift d)).1 = (b.perform op).1.map (shiftRecord d) ∧
      Shifted d (b.perform op).2 (b'.perform (op.shift d)).2 := by
  cases op with
  | push r =>
    show (b'.pushRecord (shiftRecord d r)).1 = (b.pushRecord r).1.map (shiftRecord d) ∧
      Shifted d (b.pushRecord r).2 (b'.pushRecord (shiftRecord d r)).2
    cases hseq : r.sequence with
    | none =>
      have hseq' : (shiftRecord d r).sequence = none := by simp [shiftRecord, hseq]
      rw [pushRecord, pushRecord, hseq, hseq']
      exact ⟨rfl, h⟩
    | some seq =>
      have hseq' : (shiftRecord d r).sequence = some (seq + d) := by simp [shiftRecord, hseq]
      rw [pushRecord, pushRecord, hseq, hseq']
      by_cases hlast : b.lastReleased = none
      · exact shifted_push_unopened h hb hb' hlast seq r
      · cases h with
        | unopened hunopened => exact absurd hunopened hlast
        | moved he =>
          subst he
          dsimp only
          rw [push_shift hb hclear hclear' hlast]
          exact ⟨rfl, .moved rfl⟩
  | flush =>
    show b'.flush.1 = b.flush.1.map (shiftRecord d) ∧ Shifted d b.flush.2 b'.flush.2
    cases h with
    | unopened hlast =>
      have hflush : b.flush = ([], b) := by simp [flush, hb.unopened hlast]
      rw [hflush]
      exact ⟨rfl, .unopened hlast⟩
    | moved he =>
      subst he
      rw [flush_shift]
      exact ⟨rfl, .moved rfl⟩

theorem trace_of_shifted {count : Nat} {ops : List Operation} (h : Shifted d b b')
    (hb : b.Within count) (hb' : b'.Within count) (hcount : count + ops.length ≤ 2147483648) :
    trace b' (ops.map (·.shift d)) = (trace b ops).map (·.shift d) := by
  induction ops generalizing count b b' with
  | nil => rfl
  | cons op ops ih =>
    rw [List.length_cons] at hcount
    have hclear := clear_of_position_le hb.position_le (by omega)
    have hclear' := clear_of_position_le hb'.position_le (by omega)
    obtain ⟨hreleased, hnext⟩ := shifted_perform h hb.ordered hclear hb'.ordered hclear' op
    have hafter := hb.perform (by omega) op
    have hrest := ih hnext hafter (hb'.perform (by omega) (op.shift d)) (by omega)
    obtain ⟨-, hwaiting, hlast⟩ := hnext.showing
    rw [List.map_cons, trace, trace, List.map_cons, hrest]
    simp only [Showing.of, Showing.shift, hreleased, hwaiting, hlast]

/-! ### Runs from the start -/

theorem within_new (capacity : Nat) : (new capacity : ReorderBuffer Record).Within 0 :=
  ⟨ordered_new capacity, Int.le_refl _⟩

theorem trace_unnumbered {ops : List Operation} {i : Nat} (b : ReorderBuffer Record)
    (hop : ops[i]? = some (.push r)) (hseq : r.sequence = none) :
    ((trace b ops)[i]?.map Showing.released) = some [r] := by
  induction ops generalizing b i with
  | nil => cases hop
  | cons op ops ih =>
    cases i with
    | zero =>
      obtain rfl := Option.some.inj hop
      simp [trace, Showing.of, perform, pushRecord, hseq]
    | succ i => exact ih (b.perform op).2 hop

/-- **Wrapping is not seen.** In a run of at most `2 ^ 31` operations in which an offset is added to
every sequence number, each operation releases the same records in the same order, leaves as many
waiting and has released the same number last, all with the offset added. A record without a number
passes unchanged in both runs. -/
theorem trace_shift (capacity : Nat) (d : Int32) (ops : List Operation)
    (hlength : ops.length ≤ 2147483648) :
    trace (new capacity) (ops.map (·.shift d)) = (trace (new capacity) ops).map (·.shift d) ∧
      ∀ (i : Nat) (r : Record), ops[i]? = some (Operation.push r) → r.sequence = none →
        (trace (new capacity) ops)[i]?.map Showing.released = some [r] ∧
          (trace (new capacity) (ops.map (·.shift d)))[i]?.map Showing.released = some [r] := by
  refine ⟨trace_of_shifted (.unopened rfl) (within_new capacity) (within_new capacity) (by omega),
    fun i r hop hseq => ⟨trace_unnumbered _ hop hseq, ?_⟩⟩
  have hsame : shiftRecord d r = r := by
    rw [shiftRecord, hseq, Option.map_none, ← hseq]
  refine trace_unnumbered _ ?_ hseq
  rw [List.getElem?_map, hop, Option.map_some, Operation.shift, hsame]

/-- A run of small numbers, and the same run across the largest. -/
theorem trace_shift_past_largest :
    let push (seq : Int32) : Operation := .push { Record.blank with sequence := some seq }
    let ops : List Operation := [push 5, push 7, .push Record.blank, push 6, push 9, .flush]
    let numbers (b : ReorderBuffer Record) (ops : List Operation) : List (List (Option Int32)) :=
      (trace b ops).map fun x => x.released.map Record.sequence
    ops.length ≤ 2147483648 ∧
      numbers (new 4) ops = [[some 5], [], [none], [some 6, some 7], [], [some 9]] ∧
      numbers (new 4) (ops.map (·.shift 2147483641)) =
        [[some 2147483646], [], [none], [some 2147483647, some (-2147483648)], [],
          [some (-2147483646)]] := by
  intro push ops numbers
  have hlength : ops.length ≤ 2147483648 := by decide
  refine ⟨hlength, by decide, ?_⟩
  simp only [numbers]
  rw [(trace_shift 4 2147483641 ops hlength).1]
  decide

end SeisFeed.Delivery.ReorderBuffer
