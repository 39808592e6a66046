import Mathlib.Data.List.Chain
import SeisFeed.Proofs.Waveform.Trimming
import SeisFeed.Session.Archive
/-!
# Adjacent windows

An archive is read window by window, and it sends a packet again for every window that the packet
reaches into. Each copy is cut to its window. The windows follow one another without a gap, so the
copies make up what is left of one copy that is cut to all of the time that they cover.

Where a bound stands among the samples is found by floating-point arithmetic, of which nothing is
asked but `KeepsOrder`. With it the boundaries come to places that never decrease; `spans` are the
stretches from one place to the next, those without a sample left out, and what is left of a copy is
the slice of such a stretch.
-/

namespace SeisFeed

open Time (Window)

/-! ### Windows in a row -/

/-- The windows from each boundary to the next. -/
def Time.Window.between : Int32 → List Int32 → List Window
  | _, [] => []
  | first, stop :: later => ⟨first, stop⟩ :: between stop later

theorem Time.Window.between_successors {w : Window} {count : Nat} {ws : List (Window × Int32)}
    (h : w.successors? count = some ws) :
    ws.map Prod.fst = between w.start (ws.map fun x => x.1.stop) := by
  induction count generalizing w ws with
  | zero =>
    rw [successors?] at h
    obtain ⟨span, -, h⟩ := Option.bind_eq_some_iff.1 h
    obtain rfl := Option.some.inj h
    rfl
  | succ count ih =>
    rw [successors?] at h
    obtain ⟨span, hspan, h⟩ := Option.bind_eq_some_iff.1 h
    obtain ⟨next, hnext, h⟩ := Option.bind_eq_some_iff.1 h
    obtain ⟨rest, hrest, h⟩ := Option.bind_eq_some_iff.1 h
    obtain rfl := Option.some.inj h
    have hstart : next.start = w.stop := by
      obtain ⟨span', -, rfl⟩ := Option.map_eq_some_iff.1 hnext
      rfl
    rw [List.map_cons, List.map_cons, between, ih hrest, hstart]

/-! ### Stretches between places -/

/-- The stretches from each place to the next that are not empty. -/
def spans : Nat → List Nat → List (Nat × Nat)
  | _, [] => []
  | first, place :: later =>
    if first < place then (first, place) :: spans place later else spans place later

section Spans

variable {first : Nat} {later : List Nat} {s : Nat × Nat}

theorem first_le_last (h : (first :: later).IsChain (· ≤ ·)) : first ≤ later.getLastD first := by
  induction later generalizing first with
  | nil => exact Nat.le_refl first
  | cons place later ih =>
    obtain ⟨hle, hlater⟩ := List.isChain_cons_cons.1 h
    rw [List.getLastD_cons]
    exact Nat.le_trans hle (ih hlater)

theorem mem_spans (h : (first :: later).IsChain (· ≤ ·)) (hs : s ∈ spans first later) :
    first ≤ s.1 ∧ s.1 < s.2 ∧ s.2 ≤ later.getLastD first := by
  induction later generalizing first with
  | nil => cases hs
  | cons place later ih =>
    obtain ⟨hle, hlater⟩ := List.isChain_cons_cons.1 h
    rw [List.getLastD_cons]
    rw [spans] at hs
    split at hs
    · next hlt =>
      rcases List.mem_cons.1 hs with rfl | hs
      · exact ⟨Nat.le_refl first, hlt, first_le_last hlater⟩
      · exact ⟨Nat.le_trans hle (ih hlater hs).1, (ih hlater hs).2⟩
    · exact ⟨Nat.le_trans hle (ih hlater hs).1, (ih hlater hs).2⟩

/-- A stretch ends where the next one begins: between the two no place has moved. -/
theorem isChain_spans (h : (first :: later).IsChain (· ≤ ·)) :
    (spans first later).IsChain (fun s t => s.2 = t.1) ∧
      ∀ s ∈ (spans first later).head?, s.1 = first := by
  induction later generalizing first with
  | nil => exact ⟨.nil, nofun⟩
  | cons place later ih =>
    obtain ⟨hle, hlater⟩ := List.isChain_cons_cons.1 h
    obtain ⟨hchain, hhead⟩ := ih hlater
    rw [spans]
    split
    · refine ⟨hchain.cons fun t ht => (hhead t ht).symm, fun s hs => ?_⟩
      obtain rfl := Option.some.inj hs
      rfl
    · next hnot =>
      obtain rfl : first = place := Nat.le_antisymm hle (Nat.not_lt.1 hnot)
      exact ⟨hchain, hhead⟩

theorem last_spans (h : (first :: later).IsChain (· ≤ ·)) :
    (spans first later).getLast?.elim first Prod.snd = later.getLastD first := by
  induction later generalizing first with
  | nil => rfl
  | cons place later ih =>
    obtain ⟨hle, hlater⟩ := List.isChain_cons_cons.1 h
    rw [spans, List.getLastD_cons, ← ih hlater]
    split
    · rw [List.getLast?_cons]
      cases (spans place later).getLast? <;> rfl
    · next hnot =>
      obtain rfl : first = place := Nat.le_antisymm hle (Nat.not_lt.1 hnot)
      rfl

/-- The stretches cover everything from the first place to the last, each element once. -/
theorem flatMap_spans {α : Type} {xs : List α} (h : (first :: later).IsChain (· ≤ ·))
    (hlast : later.getLastD first ≤ xs.length) :
    (spans first later).flatMap (fun s => (xs.take s.2).drop s.1) =
      (xs.take (later.getLastD first)).drop first := by
  induction later generalizing first with
  | nil => simp [spans]
  | cons place later ih =>
    obtain ⟨hle, hlater⟩ := List.isChain_cons_cons.1 h
    rw [List.getLastD_cons] at hlast ⊢
    have hrest := ih hlater hlast
    have hplace := first_le_last hlater
    rw [spans]
    split
    · have hsplit : xs.take (later.getLastD place) =
          xs.take place ++ (xs.take (later.getLastD place)).drop place := by
        conv => lhs; rw [← List.take_append_drop place (xs.take (later.getLastD place))]
        rw [List.take_take, Nat.min_eq_left hplace]
      have hfits : first ≤ (xs.take place).length := by
        rw [List.length_take]
        omega
      rw [List.flatMap_cons, hrest, hsplit, List.drop_append_of_le_length hfits, ← hsplit]
    · next hnot =>
      obtain rfl : first = place := Nat.le_antisymm hle (Nat.not_lt.1 hnot)
      exact hrest

end Spans

namespace Waveform

namespace Record

open Session (Archive)

/-! ### Cutting to windows -/

/-- What is left of a record that is cut to a window. -/
def piece (r : Record) (w : Window) : Record :=
  r.trim (Archive.startTime w) (Archive.stopTime w)

/-- Whole seconds as a bound for samples. -/
def seconds (t : Int32) : Float :=
  Float.ofInt t.toInt

/-- How many samples lie before a boundary. -/
def place (r : Record) (t : Int32) : Nat :=
  r.samplesBefore (seconds t)

/-- What is asked of floating-point arithmetic: whole seconds keep their order, and before a later
bound there are no fewer samples. -/
structure KeepsOrder (r : Record) (ts : List Int32) : Prop where
  seconds : ∀ a ∈ ts, ∀ b ∈ ts, (seconds a ≤ seconds b ↔ a ≤ b)
  samples : ∀ a ∈ ts, ∀ b ∈ ts, Record.seconds a ≤ Record.seconds b → r.place a ≤ r.place b

instance (r : Record) (ts : List Int32) : Decidable (r.KeepsOrder ts) :=
  -- by the boundaries alone: there are too many times to try each of them
  decidable_of_iff
    (ts.all (fun a => ts.all fun b => (Record.seconds a ≤ Record.seconds b ↔ a ≤ b) ∧
      (Record.seconds a ≤ Record.seconds b → r.place a ≤ r.place b)) = true) <| by
    simp only [List.all_eq_true, decide_eq_true_eq]
    constructor
    · intro h
      exact ⟨fun a ha b hb => (h a ha b hb).1, fun a ha b hb => (h a ha b hb).2⟩
    · intro h a ha b hb
      exact ⟨h.seconds a ha b hb, h.samples a ha b hb⟩

variable {r : Record} {first stop : Int32} {later : List Int32} {s t : Nat × Nat}

theorem KeepsOrder.tail (h : r.KeepsOrder (first :: later)) : r.KeepsOrder later where
  seconds a ha b hb := h.seconds a (List.mem_cons_of_mem _ ha) b (List.mem_cons_of_mem _ hb)
  samples a ha b hb := h.samples a (List.mem_cons_of_mem _ ha) b (List.mem_cons_of_mem _ hb)

theorem KeepsOrder.isChain (h : r.KeepsOrder (first :: later))
    (hincreasing : (first :: later).Pairwise (· < ·)) :
    (r.place first :: later.map r.place).IsChain (· ≤ ·) := by
  rw [← List.map_cons, List.isChain_map]
  apply List.Pairwise.isChain
  refine hincreasing.imp_of_mem fun ha hb hlt => ?_
  have hle := (h.seconds _ ha _ hb).2 (Int32.le_of_lt hlt)
  exact h.samples _ ha _ hb hle

theorem piece_of_lt (hrate : 0 < r.sampleRate) (hlt : ¬ seconds stop ≤ seconds first) :
    r.piece ⟨first, stop⟩ =
      if r.place first < r.place stop then r.slice (r.place first) (r.place stop)
      else r.emptied := by
  change r.trim (seconds first) (seconds stop) = _
  rw [trim]
  by_cases hempty : r.samples = []
  · have hplace : r.place stop = 0 := by
      have hle := r.samplesBefore_le (seconds stop)
      rwa [hempty, List.length_nil, Nat.le_zero] at hle
    rw [if_pos (.inl hempty), if_neg (by omega)]
  · rw [if_neg (by simp [hempty, hlt, hrate])]
    change (if r.place stop ≤ r.place first then _ else r.slice (r.place first) (r.place stop)) = _
    by_cases hplaces : r.place first < r.place stop
    · rw [if_neg (by omega), if_pos hplaces]
    · rw [if_pos (by omega), if_neg hplaces]

theorem piece_of_le (h : seconds stop ≤ seconds first) : r.piece ⟨first, stop⟩ = r.emptied := by
  change r.trim (seconds first) (seconds stop) = _
  rw [trim, if_pos (.inr (.inr h))]

/-- What is left of the copies of a record are its slices between the places of the boundaries. -/
theorem filter_piece_between (hrate : 0 < r.sampleRate) (h : r.KeepsOrder (first :: later))
    (hincreasing : (first :: later).Pairwise (· < ·)) :
    ((Window.between first later).map r.piece).filter hasSamples =
      (spans (r.place first) (later.map r.place)).map fun s => r.slice s.1 s.2 := by
  induction later generalizing first with
  | nil => rfl
  | cons stop later ih =>
    have hlt : ¬ seconds stop ≤ seconds first := by
      rw [h.seconds stop (by simp) first (by simp), Int32.not_le]
      exact List.rel_of_pairwise_cons hincreasing List.mem_cons_self
    have hrest := ih h.tail hincreasing.of_cons
    rw [Window.between, List.map_cons, piece_of_lt hrate hlt, List.map_cons, spans]
    split
    · next hplaces =>
      have hkept := hasSamples_slice hplaces (r.samplesBefore_le _)
      rw [List.filter_cons_of_pos hkept, hrest, List.map_cons]
    · rw [List.filter_cons_of_neg (by simp [hasSamples, emptied]), hrest]

theorem flatMap_samples_filter (rs : List Record) :
    rs.flatMap samples = (rs.filter hasSamples).flatMap samples := by
  induction rs with
  | nil => rfl
  | cons r rs ih =>
    rw [List.flatMap_cons, ih, List.filter_cons]
    split
    · rw [List.flatMap_cons]
    · next hnone =>
      have hempty : r.samples = [] := by simpa [hasSamples] using hnone
      rw [hempty, List.nil_append]

/-- What is left of one copy that is cut to all windows together. -/
theorem piece_whole (hrate : 0 < r.sampleRate) (h : r.KeepsOrder (first :: later))
    (hincreasing : (first :: later).Pairwise (· < ·)) :
    r.piece ⟨first, later.getLastD first⟩ =
      if r.place first < r.place (later.getLastD first) then
        r.slice (r.place first) (r.place (later.getLastD first))
      else r.emptied := by
  rcases List.eq_nil_or_concat later with rfl | ⟨front, last, rfl⟩
  · have hself := (h.seconds first (by simp) first (by simp)).2 (Int32.le_refl first)
    simp [piece_of_le hself]
  · rw [List.concat_eq_append, List.getLastD_concat]
    apply piece_of_lt hrate
    rw [h.seconds last (by simp) first (by simp), Int32.not_le]
    exact List.rel_of_pairwise_cons hincreasing (by simp)

theorem x0_slice (hx0 : r.x0 ≠ none) :
    (r.slice s.1 s.2).x0 = (r.slice s.1 s.2).samples.head? := by
  obtain ⟨x0, hx0⟩ := Option.ne_none_iff_exists'.1 hx0
  simp [slice, hx0]

/-- The value that follows a slice is the first of a slice that begins where it ends. -/
theorem lastValue_slice (hx0 : r.x0 ≠ none) (hlast : r.lastValue ≠ none) (hmeet : s.2 = t.1)
    (hlt : t.1 < t.2) (hle : t.2 ≤ r.samples.length) :
    (r.slice s.1 s.2).lastValue = (r.slice t.1 t.2).x0 := by
  obtain ⟨last, hlast⟩ := Option.ne_none_iff_exists'.1 hlast
  have hnext : r.samples[t.1]? = some r.samples[t.1] := List.getElem?_eq_getElem (by omega)
  rw [x0_slice hx0]
  simp [slice, hmeet, hnext, hlast, List.getElem?_take, hlt]

theorem last_place (r : Record) (first : Int32) (later : List Int32) :
    (later.map r.place).getLastD (r.place first) = r.place (later.getLastD first) := by
  rw [List.getLastD_eq_getLast?, List.getLastD_eq_getLast?, List.getLast?_map]
  cases later.getLast? <;> rfl

theorem flatMap_samples_piece (hrate : 0 < r.sampleRate) (h : r.KeepsOrder (first :: later))
    (hincreasing : (first :: later).Pairwise (· < ·)) :
    ((Window.between first later).map r.piece).flatMap samples =
      (r.piece ⟨first, later.getLastD first⟩).samples := by
  have hfits : r.place (later.getLastD first) ≤ r.samples.length := r.samplesBefore_le _
  rw [← last_place] at hfits
  rw [flatMap_samples_filter, filter_piece_between hrate h hincreasing, List.flatMap_map,
    piece_whole hrate h hincreasing]
  refine (flatMap_spans (h.isChain hincreasing) hfits).trans ?_
  rw [last_place]
  split
  · rfl
  · next hnone =>
    apply List.drop_eq_nil_of_le
    rw [List.length_take]
    omega

theorem isChain_slices (h : r.KeepsOrder (first :: later))
    (hincreasing : (first :: later).Pairwise (· < ·)) (hx0 : r.x0 ≠ none)
    (hlast : r.lastValue ≠ none) :
    ((spans (r.place first) (later.map r.place)).map fun s => r.slice s.1 s.2).IsChain
      (fun p q => p.lastValue = q.x0) := by
  have hchain := h.isChain hincreasing
  rw [List.isChain_map]
  refine (isChain_spans hchain).1.imp_of_mem_imp fun s t _ ht hmeet => ?_
  obtain ⟨-, hlt, hle⟩ := mem_spans hchain ht
  rw [last_place] at hle
  exact lastValue_slice hx0 hlast hmeet hlt (Nat.le_trans hle (r.samplesBefore_le _))

theorem lastValue_last_slice (hrate : 0 < r.sampleRate) (h : r.KeepsOrder (first :: later))
    (hincreasing : (first :: later).Pairwise (· < ·))
    (hs : s ∈ (spans (r.place first) (later.map r.place)).getLast?) :
    (r.slice s.1 s.2).lastValue = (r.piece ⟨first, later.getLastD first⟩).lastValue := by
  have hchain := h.isChain hincreasing
  have hstop : s.2 = r.place (later.getLastD first) := by
    have hends := last_spans hchain
    rw [hs, last_place] at hends
    exact hends
  obtain ⟨hstart, hlt, -⟩ := mem_spans hchain (List.mem_of_getLast? hs)
  rw [piece_whole hrate h hincreasing, if_pos (by omega), hstop]
  rfl

/-- **Adjacent windows partition a record.** The pieces that a record leaves in adjacent windows
hold together the samples that one copy keeps of all windows, each once and in order. If the record
knows its first value and the one that follows it, every piece that is not empty starts with its
first value and is followed by the first value of the next; and the last is followed by the value
that follows the one copy. -/
theorem adjacent_windows_partition (hrate : 0 < r.sampleRate)
    (hincreasing : (first :: later).Pairwise (· < ·)) (hfloat : r.KeepsOrder (first :: later)) :
    let pieces := (Window.between first later).map r.piece
    let kept := pieces.filter hasSamples
    let whole := r.piece ⟨first, later.getLastD first⟩
    pieces.flatMap samples = whole.samples ∧
      (r.x0 ≠ none → r.lastValue ≠ none →
        (∀ p ∈ kept, p.x0 = p.samples.head?) ∧
        kept.IsChain (fun p q => p.lastValue = q.x0) ∧
        ∀ p ∈ kept.getLast?, p.lastValue = whole.lastValue) := by
  intro pieces kept whole
  have hkept : kept = (spans (r.place first) (later.map r.place)).map fun s => r.slice s.1 s.2 :=
    filter_piece_between hrate hfloat hincreasing
  refine ⟨flatMap_samples_piece hrate hfloat hincreasing, fun hx0 hlast => ⟨?_, ?_, ?_⟩⟩
  · intro p hp
    rw [hkept] at hp
    obtain ⟨s, -, rfl⟩ := List.mem_map.1 hp
    exact x0_slice hx0
  · rw [hkept]
    exact isChain_slices hfloat hincreasing hx0 hlast
  · intro p hp
    rw [hkept, List.getLast?_map] at hp
    obtain ⟨s, hs, rfl⟩ := Option.map_eq_some_iff.1 hp
    exact lastValue_last_slice hrate hfloat hincreasing hs

/-- Ten samples, the first in the middle of a second. -/
def straddling : Record :=
  { blank with
    x0 := some 1
    lastValue := some 11
    time := 1700000001.5
    samples := [1, 2, 3, 4, 5, 6, 7, 8, 9, 10]
    sampleRate := 4 }

def boundaries : List Int32 :=
  [1700000001, 1700000002, 1700000003, 1700000005, 1700000006]

/-- Of five windows the first and the last are left empty, and the others share the samples. -/
theorem adjacent_windows_partition_straddling :
    0 < straddling.sampleRate ∧ (1700000000 :: boundaries).Pairwise (· < ·) ∧
      straddling.KeepsOrder (1700000000 :: boundaries) ∧
      ((Window.between 1700000000 boundaries).map straddling.piece).flatMap samples =
        (straddling.piece ⟨1700000000, 1700000006⟩).samples ∧
      ((Window.between 1700000000 boundaries).map straddling.piece).map samples =
        [[], [1, 2], [3, 4, 5, 6], [7, 8, 9, 10], []] := by
  have hrate : 0 < straddling.sampleRate := by decide
  have hincreasing : (1700000000 :: boundaries).Pairwise (· < ·) := by decide
  have hfloat : straddling.KeepsOrder (1700000000 :: boundaries) := by decide +kernel
  exact ⟨hrate, hincreasing, hfloat, (adjacent_windows_partition hrate hincreasing hfloat).1,
    by decide +kernel⟩

end Record

end Waveform

end SeisFeed
