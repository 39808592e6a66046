import SeisFeed.Proofs.Delivery.Following
/-!
# Trackers that keep the channels of a directory

A tracker keeps a directory if it tells of its channels, of each once and in order, and if whatever
waits in a buffer is of one of them. Reordering and observing records of the directory leave it so.
Such a tracker does not change when it is to follow the same directory again, and without buffers
there is nothing to flush. More generally a buffer holds, and gives out, only what was put into it:
`Waits` is a property of all records that wait, and what a tracker releases has it.
-/

namespace SeisFeed.Delivery

open Waveform (Record)

namespace ReorderBuffer

theorem mem_pushRecord {b : ReorderBuffer Record} {r x : Record}
    (h : x ∈ (b.pushRecord r).1 ∨ x ∈ (b.pushRecord r).2.flush.1) : x = r ∨ x ∈ b.flush.1 := by
  have hpush : ∀ seq, x ∈ (b.push seq r).1 ∨ x ∈ (b.push seq r).2.flush.1 →
      x = r ∨ x ∈ b.flush.1 := by
    intro seq h
    rw [push] at h
    split at h
    · exact .inr (by simpa using h)
    · next place _ =>
      split at h
      · exact .inr (by simpa using h)
      · obtain ⟨front, back, hsplit, hsettle, -⟩ := b.settle_eq (insert place r b.waiting)
        have hx : x ∈ (insert place r b.waiting).map Prod.snd := by
          rw [hsettle] at h
          rw [hsplit, List.map_append, List.mem_append]
          exact h
        have hinsert := ((insert_perm place r b.waiting).map Prod.snd).mem_iff.1 hx
        simpa [flush] using hinsert
  rw [pushRecord] at h
  split at h
  · simpa using h
  · exact hpush _ h

end ReorderBuffer

namespace ChannelState

theorem mem_reorder {s : ChannelState} {r x : Record}
    (h : x ∈ (s.reorder r).1 ∨ x ∈ (s.reorder r).2.waiting) : x = r ∨ x ∈ s.waiting := by
  rw [reorder] at h
  split at h
  · simpa using h
  · next buffer hbuffer =>
    have hwaiting : s.waiting = buffer.flush.1 := by simp [waiting, hbuffer]
    rw [hwaiting]
    exact ReorderBuffer.mem_pushRecord h

theorem buffer_reorder {s : ChannelState} (r : Record) (h : s.buffer = none) :
    (s.reorder r).2.buffer = none := by
  simp [reorder, h]

theorem waiting_drained (s : ChannelState) : s.drained.waiting = [] := by
  rw [waiting, drained]
  cases s.buffer with
  | none => rfl
  | some buffer =>
    show buffer.flush.2.flush.1 = []
    simp only [ReorderBuffer.flush]
    split
    · next hnone => rw [List.getLast?_eq_none_iff.1 hnone, List.map_nil]
    · rfl

theorem drained_of_unbuffered {s : ChannelState} (h : s.buffer = none) :
    s.waiting = [] ∧ s.drained = s := by
  obtain ⟨⟩ := s
  simp_all [waiting, drained]

end ChannelState

namespace Tracker

variable {t : Tracker} {d : Directory} {capacity : Option Nat}

theorem state?_of_mem {s : ChannelState} (hdistinct : (t.channels.map ChannelState.key).Nodup)
    (hs : s ∈ t.channels) : t.state? s.key = some s := by
  have hfind := find?_key [] hdistinct hs
  rwa [List.append_nil] at hfind

theorem rebuild_of_keys (h : t.channels.map ChannelState.key = d.keys) : t.rebuild d = t := by
  have hdistinct : (t.channels.map ChannelState.key).Nodup := h ▸ d.distinct
  have hchannels : d.keys.map t.stateOf = t.channels := by
    rw [← h, List.map_map]
    conv => rhs; rw [← List.map_id t.channels]
    apply List.map_congr_left
    intro s hs
    exact stateOf_of_state? (state?_of_mem hdistinct hs)
  rw [Tracker.rebuild, hchannels]

/-- A tracker that tells of the channels of a directory, each once and in order. Whatever waits is
of one of them, and without a capacity nothing can wait. -/
structure Keeps (t : Tracker) (d : Directory) (capacity : Option Nat) : Prop where
  keys : t.channels.map ChannelState.key = d.keys
  limit : t.reorderCapacity = capacity
  waiting : ∀ s ∈ t.channels, ∀ r ∈ s.waiting, r.key ∈ d.keys
  unbuffered : capacity = none → ∀ s ∈ t.channels, s.buffer = none

theorem keeps_rebuild_new (d : Directory) (capacity : Option Nat) :
    ((new .empty capacity).rebuild d).Keeps d capacity := by
  have hchannels : ((new .empty capacity).rebuild d).channels =
      d.keys.map (ChannelState.fresh capacity) := rfl
  refine ⟨?_, rfl, ?_, ?_⟩
  · rw [hchannels, List.map_map]
    exact List.map_id d.keys
  · intro s hs r hr
    obtain ⟨key, -, rfl⟩ := List.mem_map.1 (hchannels ▸ hs)
    rw [ChannelState.waiting_fresh] at hr
    exact nomatch hr
  · rintro rfl s hs
    obtain ⟨key, -, rfl⟩ := List.mem_map.1 (hchannels ▸ hs)
    rfl

theorem Keeps.state?_eq {s : ChannelState} (h : t.Keeps d capacity) (hs : s ∈ t.channels) :
    t.state? s.key = some s :=
  state?_of_mem (h.keys ▸ d.distinct) hs

theorem Keeps.stateOf_mem {key : UInt32} (h : t.Keeps d capacity) (hkey : key ∈ d.keys) :
    t.stateOf key ∈ t.channels := by
  rw [← h.keys] at hkey
  obtain ⟨s, hs, rfl⟩ := List.mem_map.1 hkey
  rw [stateOf_of_state? (h.state?_eq hs)]
  exact hs

theorem Keeps.put {s : ChannelState} (h : t.Keeps d capacity) (hkey : s.key ∈ d.keys)
    (hwaiting : ∀ r ∈ s.waiting, r.key ∈ d.keys) (hbuffer : capacity = none → s.buffer = none) :
    (t.put s).Keeps d capacity := by
  refine ⟨?_, h.limit, ?_, ?_⟩
  · exact (map_key_putState (h.keys ▸ hkey)).trans h.keys
  · intro c hc
    rcases mem_putState hc with rfl | hc
    · exact hwaiting
    · exact h.waiting c hc
  · intro hnone c hc
    rcases mem_putState hc with rfl | hc
    · exact hbuffer hnone
    · exact h.unbuffered hnone c hc

theorem Keeps.observe {r : Record} (h : t.Keeps d capacity) (hr : r.key ∈ d.keys) :
    (t.observe r).2.Keeps d capacity := by
  have hmem := h.stateOf_mem hr
  have hframe := (t.stateOf r.key).observe_frame t.tolerance r
  change (t.put ((t.stateOf r.key).observe t.tolerance r).2).Keeps d capacity
  apply h.put
  · rw [t.key_observe r]
    exact hr
  · rw [ChannelState.waiting_observe]
    exact h.waiting _ hmem
  · intro hnone
    rw [hframe.2]
    exact h.unbuffered hnone _ hmem

theorem Keeps.observeAll {rs : List Record} (h : t.Keeps d capacity)
    (hrs : ∀ r ∈ rs, r.key ∈ d.keys) : (t.observeAll rs).Keeps d capacity := by
  induction rs generalizing t with
  | nil => exact h
  | cons r rs ih =>
    exact ih (h.observe (hrs r List.mem_cons_self)) fun x hx => hrs x (List.mem_cons_of_mem r hx)

theorem Keeps.reorder {r : Record} (h : t.Keeps d capacity) (hr : r.key ∈ d.keys) :
    (t.reorder r).2.Keeps d capacity ∧ ∀ x ∈ (t.reorder r).1, x.key ∈ d.keys := by
  rw [Tracker.reorder]
  cases hstate : t.state? r.key with
  | none => simpa using And.intro h hr
  | some s =>
    have hs : s ∈ t.channels := List.mem_of_find?_eq_some hstate
    have hmem : ∀ x, x ∈ (s.reorder r).1 ∨ x ∈ (s.reorder r).2.waiting → x.key ∈ d.keys := by
      intro x hx
      rcases ChannelState.mem_reorder hx with rfl | hx
      · exact hr
      · exact h.waiting s hs x hx
    refine ⟨h.put ?_ (fun x hx => hmem x (.inr hx)) ?_, fun x hx => hmem x (.inl hx)⟩
    · rw [s.key_reorder r, key_eq_of_state? hstate]
      exact hr
    · intro hnone
      exact ChannelState.buffer_reorder r (h.unbuffered hnone s hs)

theorem Keeps.rebuild (h : t.Keeps d capacity) : t.rebuild d = t :=
  rebuild_of_keys h.keys

theorem Keeps.flush (h : t.Keeps d none) : t.flush = ([], t) := by
  have hdrained : ∀ s ∈ t.channels, s.waiting = [] ∧ s.drained = s := fun s hs =>
    ChannelState.drained_of_unbuffered (h.unbuffered rfl s hs)
  have hchannels : t.channels.map ChannelState.drained = t.channels := by
    conv => rhs; rw [← List.map_id t.channels]
    exact List.map_congr_left fun s hs => (hdrained s hs).2
  rw [Tracker.flush, hchannels, List.flatMap_eq_nil_iff.2 fun s hs => (hdrained s hs).1]

/-! ### What waits -/

/-- Everything that waits in a buffer has a property. -/
def Waits (t : Tracker) (P : Record → Prop) : Prop :=
  ∀ s ∈ t.channels, ∀ r ∈ s.waiting, P r

variable {P : Record → Prop}

theorem Waits.stateOf (h : t.Waits P) (key : UInt32) : ∀ r ∈ (t.stateOf key).waiting, P r := by
  rw [Tracker.stateOf]
  cases hstate : t.state? key with
  | none =>
    intro r hr
    rw [Option.getD_none, ChannelState.waiting_fresh] at hr
    cases hr
  | some s => exact h s (List.mem_of_find?_eq_some hstate)

theorem Waits.put {s : ChannelState} (h : t.Waits P) (hs : ∀ r ∈ s.waiting, P r) :
    (t.put s).Waits P := by
  intro c hc
  rcases mem_putState hc with rfl | hc
  · exact hs
  · exact h c hc

theorem waits_rebuild_new (d : Directory) (capacity : Option Nat) (P : Record → Prop) :
    ((new .empty capacity).rebuild d).Waits P := by
  have hnone : (new .empty capacity).Waits P := fun s hs => by cases hs
  intro s hs
  obtain ⟨key, -, rfl⟩ := List.mem_map.1 hs
  exact hnone.stateOf key

theorem Waits.observeAll {rs : List Record} (h : t.Waits P) : (t.observeAll rs).Waits P := by
  induction rs generalizing t with
  | nil => exact h
  | cons r rs ih =>
    apply ih
    change (t.put ((t.stateOf r.key).observe t.tolerance r).2).Waits P
    apply h.put
    rw [ChannelState.waiting_observe]
    exact h.stateOf r.key

theorem Waits.reorder {r : Record} (h : t.Waits P) (hr : P r) :
    (t.reorder r).2.Waits P ∧ ∀ x ∈ (t.reorder r).1, P x := by
  rw [Tracker.reorder]
  cases hstate : t.state? r.key with
  | none => simpa using And.intro h hr
  | some s =>
    have hmem : ∀ x, x ∈ (s.reorder r).1 ∨ x ∈ (s.reorder r).2.waiting → P x := by
      intro x hx
      rcases ChannelState.mem_reorder hx with rfl | hx
      · exact hr
      · exact h s (List.mem_of_find?_eq_some hstate) x hx
    exact ⟨h.put fun x hx => hmem x (.inr hx), fun x hx => hmem x (.inl hx)⟩

theorem Waits.flush (h : t.Waits P) : t.flush.2.Waits P ∧ ∀ x ∈ t.flush.1, P x := by
  constructor
  · intro c hc r hr
    obtain ⟨s, -, rfl⟩ := List.mem_map.1 hc
    rw [ChannelState.waiting_drained] at hr
    cases hr
  · intro x hx
    obtain ⟨s, hs, hx⟩ := List.mem_flatMap.1 hx
    exact h s hs x hx

end Tracker

end SeisFeed.Delivery
