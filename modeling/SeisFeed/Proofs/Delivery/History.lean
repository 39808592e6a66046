import Mathlib.Data.List.Induction
import SeisFeed.Proofs.Delivery.Independence
/-!
# The history of a channel

A tracker compares a record with what it remembers of its channel, and goes over the records one by
one. What it finds can be said of the history alone: each record is compared with the nearest record
with samples before it, and records without samples might as well not have come. `seams` pairs each
record with that nearest one. A state that remembers a history answers by the last of these pairs
and then remembers one record more, so all answers and counts of a run are read off the pairs.
-/

namespace SeisFeed.Delivery

open Waveform (Record)

/-! ### Records and the nearest before them -/

/-- The last of some records that has samples. -/
def nearest (rs : List Record) : Option Record :=
  (rs.filter Record.hasSamples).getLast?

/-- The records of a history, each behind the nearest record with samples before it. -/
def seams (rs : List Record) : List (Option Record × Record) :=
  rs.mapIdx fun i r => (nearest (rs.take i), r)

/-- The value that the record after a record has to start with. -/
def valueLeft (p : Record) : Option Int32 :=
  p.lastValue.or p.samples.getLast?

/-- Whether a record says what it starts with, and that is not what the one before it left. -/
def seamBroken (p : Option Record) (r : Record) : Bool :=
  match r.x0, p.bind valueLeft with
  | some x0, some left => x0 != left
  | _, _ => false

namespace Continuity

/-- How a record follows the nearest with samples before it, by when that one ended. -/
def between (tolerance : Float) (p : Option Record) (r : Record) : Continuity :=
  if r.samples = [] then .empty
  else
    match p with
    | none => .first
    | some p =>
      if tolerance < r.time - p.endTime then .gap (r.time - p.endTime)
      else if r.time - p.endTime < -tolerance then .overlap (-(r.time - p.endTime))
      else .contiguous

def isGap : Continuity → Bool
  | gap _ => true
  | _ => false

def isOverlap : Continuity → Bool
  | overlap _ => true
  | _ => false

def isContiguous : Continuity → Bool
  | contiguous => true
  | _ => false

end Continuity

theorem nearest_concat_of_empty {r : Record} (hr : r.samples = []) (rs : List Record) :
    nearest (rs ++ [r]) = nearest rs := by
  simp [nearest, Record.hasSamples, hr]

theorem nearest_concat_of_samples {r : Record} (hr : r.samples ≠ []) (rs : List Record) :
    nearest (rs ++ [r]) = some r := by
  simp [nearest, Record.hasSamples, hr]

theorem seams_concat (rs : List Record) (r : Record) :
    seams (rs ++ [r]) = seams rs ++ [(nearest rs, r)] := by
  rw [seams, List.mapIdx_concat, List.take_left]
  congr 1
  apply List.ext_getElem
  · simp [seams]
  · intro i _ hi
    have hlt : i < rs.length := by simpa [seams] using hi
    simp [seams, List.take_append_of_le_length (Nat.le_of_lt hlt)]

theorem countP_seams_concat (f : Option Record × Record → Bool) (rs : List Record) (r : Record) :
    (seams (rs ++ [r])).countP f = (seams rs).countP f + (f (nearest rs, r)).toNat := by
  rw [seams_concat, List.countP_append, List.countP_singleton]
  cases f (nearest rs, r) <;> rfl

/-! ### States -/

namespace ChannelState

variable {s : ChannelState} {tolerance : Float} {rs : List Record} {r : Record}

/-- A state tells of a history: when the last record with samples ended and what it left, and how
often a record did not follow the one before it. -/
structure Remembers (tolerance : Float) (rs : List Record) (s : ChannelState) : Prop where
  significant : s.significant = (nearest rs).isSome
  lastEndTime : ∀ p, nearest rs = some p → s.lastEndTime = p.endTime
  previousLastSample : s.previousLastSample = (nearest rs).bind valueLeft
  gaps : s.gaps = (seams rs).countP fun (p, r) => (Continuity.between tolerance p r).isGap
  overlaps :
    s.overlaps = (seams rs).countP fun (p, r) => (Continuity.between tolerance p r).isOverlap
  x0Mismatches : s.x0Mismatches = (seams rs).countP fun (p, r) =>
    (Continuity.between tolerance p r).isContiguous && seamBroken p r

theorem remembers_fresh (tolerance : Float) (capacity : Option Nat) (key : UInt32) :
    (fresh capacity key).Remembers tolerance [] where
  significant := rfl
  lastEndTime := fun _ h => nomatch h
  previousLastSample := rfl
  gaps := rfl
  overlaps := rfl
  x0Mismatches := rfl

theorem observe_of_empty (hr : r.samples = []) (s : ChannelState) (tolerance : Float) :
    s.observe tolerance r = (.empty, s) :=
  if_pos hr

theorem observe_of_samples (hr : r.samples ≠ []) (s : ChannelState) (tolerance : Float) :
    s.observe tolerance r =
      (s.compare tolerance r, (s.count r (s.compare tolerance r)).advance r) :=
  if_neg hr

theorem Remembers.x0Mismatch_eq (h : s.Remembers tolerance rs) (r : Record) :
    s.x0Mismatch r = seamBroken (nearest rs) r := by
  rw [x0Mismatch, h.previousLastSample]
  rfl

theorem Remembers.compare_eq (h : s.Remembers tolerance rs) (hr : r.samples ≠ []) :
    s.compare tolerance r = Continuity.between tolerance (nearest rs) r := by
  have hsignificant := h.significant
  unfold Continuity.between
  rw [if_neg hr]
  cases hnearest : nearest rs with
  | none =>
    rw [hnearest] at hsignificant
    simp [compare, hsignificant]
  | some p =>
    rw [hnearest] at hsignificant
    simp [compare, hsignificant, h.lastEndTime p hnearest]

theorem Remembers.observe_fst (h : s.Remembers tolerance rs) (r : Record) :
    (s.observe tolerance r).1 = Continuity.between tolerance (nearest rs) r := by
  by_cases hr : r.samples = []
  · rw [observe_of_empty hr]
    exact (if_pos hr).symm
  · rw [observe_of_samples hr]
    exact h.compare_eq hr

/-- What a record is found to be goes into its count, and into no other. -/
theorem counts_observe (s : ChannelState) (tolerance : Float) (r : Record) :
    let found := (s.observe tolerance r).1
    let s' := (s.observe tolerance r).2
    s'.gaps = s.gaps + found.isGap.toNat ∧ s'.overlaps = s.overlaps + found.isOverlap.toNat ∧
      s'.x0Mismatches = s.x0Mismatches + (found.isContiguous && s.x0Mismatch r).toNat := by
  by_cases hr : r.samples = []
  · rw [observe_of_empty hr]
    exact ⟨rfl, rfl, rfl⟩
  · rw [observe_of_samples hr]
    cases s.compare tolerance r with
    | contiguous =>
      rw [count]
      cases s.x0Mismatch r <;> exact ⟨rfl, rfl, rfl⟩
    | first | gap | overlap | empty => exact ⟨rfl, rfl, rfl⟩

theorem Remembers.observe (h : s.Remembers tolerance rs) (r : Record) :
    (s.observe tolerance r).2.Remembers tolerance (rs ++ [r]) := by
  obtain ⟨hgaps, hoverlaps, hmismatches⟩ := s.counts_observe tolerance r
  rw [h.observe_fst r] at hgaps hoverlaps hmismatches
  rw [h.x0Mismatch_eq r] at hmismatches
  have hlast : (s.observe tolerance r).2.significant = (nearest (rs ++ [r])).isSome ∧
      (∀ p, nearest (rs ++ [r]) = some p → (s.observe tolerance r).2.lastEndTime = p.endTime) ∧
      (s.observe tolerance r).2.previousLastSample = (nearest (rs ++ [r])).bind valueLeft := by
    by_cases hr : r.samples = []
    · rw [observe_of_empty hr, nearest_concat_of_empty hr]
      exact ⟨h.significant, h.lastEndTime, h.previousLastSample⟩
    · rw [observe_of_samples hr, nearest_concat_of_samples hr]
      refine ⟨rfl, ?_, rfl⟩
      rintro p ⟨⟩
      rfl
  obtain ⟨hsignificant, hend, hleft⟩ := hlast
  refine ⟨hsignificant, hend, hleft, ?_, ?_, ?_⟩
  · rw [hgaps, h.gaps, countP_seams_concat]
  · rw [hoverlaps, h.overlaps, countP_seams_concat]
  · rw [hmismatches, h.x0Mismatches, countP_seams_concat]

end ChannelState

/-! ### Trackers -/

/-- What a tracker answers about a record: whether it starts with another value than the one before
it left, asked just before the record is observed, and how it follows. -/
structure Finding where
  broken : Bool
  continuity : Continuity

namespace Tracker

variable {t : Tracker} {d : Directory} {key : UInt32} {rs : List Record} {r : Record}

/-- What a tracker answers about records that it observes in order. -/
def findings (t : Tracker) : List Record → List Finding
  | [] => []
  | r :: rs => ⟨t.x0Mismatch r, (t.observe r).1⟩ :: findings (t.observe r).2 rs

theorem observeAll_concat (t : Tracker) (rs : List Record) (r : Record) :
    t.observeAll (rs ++ [r]) = ((t.observeAll rs).observe r).2 := by
  simp [observeAll]

theorem findings_concat (t : Tracker) (rs : List Record) (r : Record) :
    t.findings (rs ++ [r]) = t.findings rs ++
      [⟨(t.observeAll rs).x0Mismatch r, ((t.observeAll rs).observe r).1⟩] := by
  induction rs generalizing t with
  | nil => rfl
  | cons x rs ih =>
    rw [List.cons_append, findings, ih]
    rfl

theorem tolerance_observeAll (t : Tracker) (rs : List Record) :
    (t.observeAll rs).tolerance = t.tolerance := by
  induction rs generalizing t with
  | nil => rfl
  | cons r rs ih => exact ih (t.observe r).2

theorem put_of_state? {s : ChannelState} (hstate : t.state? key = some s) : t.put s = t := by
  have hkey : s.key = key := key_eq_of_state? hstate
  have hsame : ∀ states : List ChannelState, (states.find? fun c => c.key == key) = some s →
      putState s states = states := by
    intro states hfind
    induction states with
    | nil => exact nomatch hfind
    | cons c cs ih =>
      by_cases hc : c.key = key
      · obtain rfl : c = s := by simpa [hc] using hfind
        simp [putState]
      · have hrest : (cs.find? fun c => c.key == key) = some s := by simpa [hc] using hfind
        simp [putState, hkey, hc, ih hrest]
  rw [put, hsame t.channels hstate]

theorem state?_new {d : Directory} (capacity : Option Nat) (tolerance : Float)
    (hkey : key ∈ d.keys) : ((new d capacity).withTolerance tolerance).state? key =
      some (ChannelState.fresh capacity key) :=
  state?_rebuild ⟨[], tolerance, capacity⟩ hkey

/-- A tracker has a state of a channel that remembers the records of a history. -/
def Recalls (t : Tracker) (key : UInt32) (rs : List Record) : Prop :=
  ∃ s, t.state? key = some s ∧ s.Remembers t.tolerance rs

theorem Recalls.finding_eq (h : t.Recalls r.key rs) :
    (⟨t.x0Mismatch r, (t.observe r).1⟩ : Finding) =
      ⟨seamBroken (nearest rs) r, .between t.tolerance (nearest rs) r⟩ := by
  obtain ⟨s, hstate, hs⟩ := h
  have hbroken : t.x0Mismatch r = s.x0Mismatch r := by rw [x0Mismatch, hstate, Option.any_some]
  have hcontinuity : (t.observe r).1 = (s.observe t.tolerance r).1 := by
    rw [observe, stateOf_of_state? hstate]
  rw [hbroken, hcontinuity, hs.x0Mismatch_eq, hs.observe_fst]

theorem Recalls.observe (h : t.Recalls r.key rs) : (t.observe r).2.Recalls r.key (rs ++ [r]) := by
  obtain ⟨s, hstate, hs⟩ := h
  refine ⟨_, ?_, hs.observe r⟩
  rw [observe_eq_put, stateOf_of_state? hstate]
  apply state?_put_self
  exact (s.observe_frame t.tolerance r).1.trans (key_eq_of_state? hstate)

theorem Recalls.observe_of_empty (h : t.Recalls r.key rs) (hr : r.samples = []) :
    t.observe r = (.empty, t) := by
  obtain ⟨s, hstate, -⟩ := h
  rw [Tracker.observe, stateOf_of_state? hstate, ChannelState.observe_of_empty hr]
  exact congrArg (Prod.mk _) (put_of_state? hstate)

theorem Recalls.observeAll (h : t.Recalls key []) (hrs : ∀ r ∈ rs, r.key = key) :
    (t.observeAll rs).Recalls key rs := by
  induction rs using List.reverseRecOn with
  | nil => exact h
  | append_singleton rs r ih =>
    have hbefore : ∀ x ∈ rs, x.key = key := fun x hx => hrs x (List.mem_append_left [r] hx)
    obtain rfl : r.key = key := hrs r (by simp)
    rw [observeAll_concat]
    exact (ih hbefore).observe

theorem Recalls.findings_eq (h : t.Recalls key []) (hrs : ∀ r ∈ rs, r.key = key) :
    t.findings rs = (seams rs).map fun (p, r) => ⟨seamBroken p r, .between t.tolerance p r⟩ := by
  induction rs using List.reverseRecOn with
  | nil => rfl
  | append_singleton rs r ih =>
    have hbefore : ∀ x ∈ rs, x.key = key := fun x hx => hrs x (List.mem_append_left [r] hx)
    obtain rfl : r.key = key := hrs r (by simp)
    rw [findings_concat, ih hbefore, (h.observeAll hbefore).finding_eq, seams_concat,
      List.map_append, tolerance_observeAll]
    rfl

/-- **A channel's history.** Of every record of a channel a tracker tells how it follows the nearest
record with samples before it, and whether it starts with what that one left: it is the first if
there is none, and otherwise only the time from the end of that one to its own counts. A record
without samples is answered as such and changes nothing at all. In the end the gaps and overlaps
counted are those that were answered, and the mismatches counted are the contiguous records that did
not start with what was left, which are those that a question just before told of. -/
theorem observes_by_nearest (capacity : Option Nat) (tolerance : Float) (hkey : key ∈ d.keys)
    (hrs : ∀ r ∈ rs, r.key = key) :
    let t := (new d capacity).withTolerance tolerance
    let found := t.findings rs
    found = ((seams rs).map fun (p, r) => ⟨seamBroken p r, .between tolerance p r⟩) ∧
      (∀ before r later, rs = before ++ r :: later → r.samples = [] →
        (t.observeAll before).observe r = (.empty, t.observeAll before)) ∧
      ∃ s, (t.observeAll rs).state? key = some s ∧
        s.gaps = found.countP (fun f => f.continuity.isGap) ∧
        s.overlaps = found.countP (fun f => f.continuity.isOverlap) ∧
        s.x0Mismatches = (seams rs).countP (fun (p, r) =>
          (Continuity.between tolerance p r).isContiguous && seamBroken p r) ∧
        s.x0Mismatches = found.countP (fun f => f.continuity.isContiguous && f.broken) := by
  intro t found
  have hnew : t.Recalls key [] :=
    ⟨_, state?_new capacity tolerance hkey, ChannelState.remembers_fresh _ _ _⟩
  have hfound : found = (seams rs).map fun (p, r) =>
      ⟨seamBroken p r, .between tolerance p r⟩ := hnew.findings_eq hrs
  obtain ⟨s, hstate, hs⟩ := hnew.observeAll hrs
  rw [tolerance_observeAll] at hs
  refine ⟨hfound, fun before r later hsplit hr => ?_, s, hstate, ?_, ?_, hs.x0Mismatches, ?_⟩
  · rw [hsplit] at hrs
    obtain rfl : r.key = key := hrs r (by simp)
    have hbefore : ∀ x ∈ before, x.key = r.key := fun x hx => hrs x (List.mem_append_left _ hx)
    exact (hnew.observeAll hbefore).observe_of_empty hr
  · rw [hfound, List.countP_map]
    exact hs.gaps
  · rw [hfound, List.countP_map]
    exact hs.overlaps
  · rw [hfound, List.countP_map]
    exact hs.x0Mismatches

/-- A second of samples, half a second that starts with another value than was left, and half a
second that comes late, with records without samples before and between them. -/
def interrupted : List Record :=
  let silent : Record := { Waveform.Record.blank with key := 7, sampleRate := 4 }
  [{ silent with time := 499 },
    { silent with time := 500, samples := [1, 2, 3, 4], lastValue := some 5 },
    { silent with time := 530 },
    { silent with time := 501, samples := [6, 7], x0 := some 6 },
    { silent with time := 503, samples := [7, 8], x0 := some 7 }]

theorem observes_by_nearest_interrupted :
    let d := Directory.ofList [⟨7, "STA.HHZ", none⟩]
    let t := (new d none).withTolerance gapTolerance
    7 ∈ d.keys ∧ (∀ r ∈ interrupted, r.key = 7) ∧
      ∃ s, (t.observeAll interrupted).state? 7 = some s ∧
        s.gaps = 1 ∧ s.overlaps = 0 ∧ s.x0Mismatches = 1 := by
  intro d t
  have hkey : 7 ∈ d.keys := by decide
  have hrs : ∀ r ∈ interrupted, r.key = 7 := by decide
  obtain ⟨hfound, -, s, hstate, hgaps, hoverlaps, hmismatches, -⟩ :=
    observes_by_nearest none gapTolerance hkey hrs
  rw [hfound, List.countP_map] at hgaps hoverlaps
  refine ⟨hkey, hrs, s, hstate, hgaps.trans ?_, hoverlaps.trans ?_, hmismatches.trans ?_⟩
  · decide
  · decide
  · decide

end Tracker

end SeisFeed.Delivery
