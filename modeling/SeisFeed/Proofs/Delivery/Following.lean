import SeisFeed.Delivery.Continuity
import SeisFeed.Proofs.Delivery.Places
/-!
# Trackers that follow a directory

A tracker follows a directory if its first channels are those of the directory, in their order, and
nothing waits in the others. Records of the directory's channels are reordered in place, and
observing a record leaves all buffers as they are, so a tracker goes on following; and what still
waits at the end comes out in the order of the directory.
-/

namespace SeisFeed.Delivery

open Waveform (Record)

/-! ### Buffers -/

namespace ReorderBuffer

theorem length_pushRecord_le (b : ReorderBuffer Record) (r : Record) :
    (b.pushRecord r).1.length + (b.pushRecord r).2.waiting.length ≤ b.waiting.length + 1 := by
  have hpush : ∀ seq,
      (b.push seq r).1.length + (b.push seq r).2.waiting.length ≤ b.waiting.length + 1 := by
    intro seq
    rw [push]
    split
    · simp
    · next place _ =>
      split
      · simp
      · obtain ⟨front, back, hsplit, hsettle, -⟩ := b.settle_eq (insert place r b.waiting)
        have hlength := congrArg List.length hsplit
        rw [(insert_perm place r b.waiting).length_eq, List.length_append] at hlength
        rw [hsettle, List.length_map, ← hlength]
        exact Nat.le_refl _
  rw [pushRecord]
  split
  · exact Nat.le_of_eq (Nat.add_comm _ _)
  · exact hpush _

end ReorderBuffer

/-! ### Channels -/

namespace ChannelState

@[simp] theorem waiting_fresh (capacity : Option Nat) (key : UInt32) :
    (fresh capacity key).waiting = [] := by
  cases capacity <;> rfl

theorem observe_frame (s : ChannelState) (tolerance : Float) (r : Record) :
    (s.observe tolerance r).2.key = s.key ∧ (s.observe tolerance r).2.buffer = s.buffer := by
  have hcount : ∀ found, (s.count r found).key = s.key ∧ (s.count r found).buffer = s.buffer := by
    intro found
    cases found with
    | contiguous =>
      rw [count]
      split <;> exact ⟨rfl, rfl⟩
    | first | gap | overlap | empty => exact ⟨rfl, rfl⟩
  rw [observe]
  split
  · exact ⟨rfl, rfl⟩
  · exact hcount _

theorem waiting_observe (s : ChannelState) (tolerance : Float) (r : Record) :
    (s.observe tolerance r).2.waiting = s.waiting := by
  rw [waiting, (s.observe_frame tolerance r).2, waiting]

theorem key_reorder (s : ChannelState) (r : Record) : (s.reorder r).2.key = s.key := by
  rw [reorder]
  split <;> rfl

/-- A record passed through a channel's buffer comes out, or waits, or is dropped. -/
theorem length_reorder_le (s : ChannelState) (r : Record) :
    (s.reorder r).1.length + (s.reorder r).2.waiting.length ≤ s.waiting.length + 1 := by
  rw [reorder]
  split
  · next hbuffer => simp [waiting, hbuffer]
  · next buffer hbuffer =>
    have := buffer.length_pushRecord_le r
    simpa [waiting, hbuffer, ReorderBuffer.flush] using this

end ChannelState

/-! ### Lists of channels -/

namespace Tracker

theorem putState_append_of_mem {s : ChannelState} {states : List ChannelState}
    (others : List ChannelState) (h : s.key ∈ states.map ChannelState.key) :
    putState s (states ++ others) = putState s states ++ others := by
  induction states with
  | nil => exact nomatch h
  | cons c cs ih =>
    by_cases hc : c.key = s.key
    · simp [putState, hc]
    · have hcs : s.key ∈ cs.map ChannelState.key := by simpa [Ne.symm hc] using h
      simp [putState, hc, ih hcs]

theorem putState_append_of_notMem {s : ChannelState} {states : List ChannelState}
    (others : List ChannelState) (h : s.key ∉ states.map ChannelState.key) :
    putState s (states ++ others) = states ++ putState s others := by
  induction states with
  | nil => rfl
  | cons c cs ih =>
    obtain ⟨hc, hcs⟩ : s.key ≠ c.key ∧ s.key ∉ cs.map ChannelState.key := by simpa using h
    simp [putState, hc.symm, ih hcs]

theorem map_key_putState {s : ChannelState} {states : List ChannelState}
    (h : s.key ∈ states.map ChannelState.key) :
    (putState s states).map ChannelState.key = states.map ChannelState.key := by
  induction states with
  | nil => exact nomatch h
  | cons c cs ih =>
    by_cases hc : c.key = s.key
    · simp [putState, hc]
    · have hcs : s.key ∈ cs.map ChannelState.key := by simpa [Ne.symm hc] using h
      simp [putState, hc, ih hcs]

theorem mem_putState {s c : ChannelState} {states : List ChannelState} (h : c ∈ putState s states) :
    c = s ∨ c ∈ states := by
  induction states with
  | nil => exact .inl (List.mem_singleton.1 h)
  | cons d ds ih =>
    rw [putState] at h
    split at h
    · exact (List.mem_cons.1 h).imp_right (List.mem_cons_of_mem d)
    · rcases List.mem_cons.1 h with rfl | h
      · exact .inr List.mem_cons_self
      · exact (ih h).imp_right (List.mem_cons_of_mem d)

/-- Putting a state changes what waits by what waits in it and in the one it replaces. -/
theorem length_waiting_putState (s : ChannelState) (states : List ChannelState) :
    ((putState s states).flatMap ChannelState.waiting).length +
        ((states.find? fun c => c.key == s.key).elim [] ChannelState.waiting).length =
      (states.flatMap ChannelState.waiting).length + s.waiting.length := by
  induction states with
  | nil => simp [putState]
  | cons c cs ih =>
    by_cases hc : c.key = s.key
    · simp only [putState, hc, if_true, List.find?_cons, beq_self_eq_true, List.flatMap_cons,
        List.length_append, Option.elim_some]
      omega
    · have hc' : (c.key == s.key) = false := by simpa using hc
      simp only [putState, hc, if_false, List.find?_cons, hc', List.flatMap_cons,
        List.length_append]
      omega

theorem find?_key {s : ChannelState} {states : List ChannelState} (others : List ChannelState)
    (hdistinct : (states.map ChannelState.key).Nodup) (hs : s ∈ states) :
    ((states ++ others).find? fun c => c.key == s.key) = some s := by
  induction states with
  | nil => exact nomatch hs
  | cons c cs ih =>
    obtain ⟨hc, hdistinct⟩ := List.nodup_cons.1 hdistinct
    rcases List.mem_cons.1 hs with rfl | hs
    · simp
    · have hne : (c.key == s.key) = false := by
        rw [beq_eq_false_iff_ne]
        exact fun h => hc (h ▸ List.mem_map_of_mem hs)
      rw [List.cons_append, List.find?_cons, hne]
      exact ih hdistinct hs

/-! ### Trackers -/

variable {t : Tracker} {d : Directory}

theorem key_eq_of_state? {key : UInt32} {s : ChannelState} (h : t.state? key = some s) :
    s.key = key := by
  have := List.find?_some h
  exact beq_iff_eq.1 this

theorem stateOf_of_state? {key : UInt32} {s : ChannelState} (h : t.state? key = some s) :
    t.stateOf key = s := by
  rw [stateOf, h, Option.getD_some]

theorem key_stateOf (t : Tracker) (key : UInt32) : (t.stateOf key).key = key := by
  rw [stateOf]
  cases hstate : t.state? key with
  | none => rfl
  | some s => exact key_eq_of_state? hstate

theorem state?_rebuild (t : Tracker) {d : Directory} {key : UInt32} (hkey : key ∈ d.keys) :
    (t.rebuild d).state? key = some (t.stateOf key) := by
  have hsame : ((fun s : ChannelState => s.key == key) ∘ t.stateOf) = fun k => k == key := by
    funext k
    rw [Function.comp_apply, t.key_stateOf k]
  rw [rebuild, state?, List.find?_map, hsame]
  cases hfind : d.keys.find? fun k => k == key with
  | none => exact absurd (List.find?_eq_none.1 hfind key hkey) (by simp)
  | some k =>
    obtain rfl : k = key := by simpa using List.find?_some hfind
    rfl

theorem key_observe (t : Tracker) (r : Record) :
    ((t.stateOf r.key).observe t.tolerance r).2.key = r.key :=
  ((t.stateOf r.key).observe_frame t.tolerance r).1.trans (t.key_stateOf r.key)

theorem waiting_stateOf (t : Tracker) (key : UInt32) :
    (t.stateOf key).waiting = (t.state? key).elim [] ChannelState.waiting := by
  rw [stateOf]
  cases t.state? key with
  | none => exact ChannelState.waiting_fresh _ _
  | some s => rfl

theorem waitingCount_observe (t : Tracker) (r : Record) :
    (t.observe r).2.waitingCount = t.waitingCount := by
  have hput := length_waiting_putState ((t.stateOf r.key).observe t.tolerance r).2 t.channels
  rw [ChannelState.waiting_observe, waiting_stateOf, key_observe] at hput
  exact Nat.add_right_cancel hput

theorem waitingCount_observeAll (t : Tracker) (rs : List Record) :
    (t.observeAll rs).waitingCount = t.waitingCount := by
  induction rs generalizing t with
  | nil => rfl
  | cons r rs ih => exact (ih (t.observe r).2).trans (t.waitingCount_observe r)

/-- Of the records that wait and one more, some come out, and the others are at most what waits
afterwards. -/
theorem length_reorder_le (t : Tracker) (r : Record) :
    (t.reorder r).1.length + (t.reorder r).2.waitingCount ≤ t.waitingCount + 1 := by
  rw [reorder]
  cases hstate : t.state? r.key with
  | none => exact Nat.le_of_eq (Nat.add_comm _ _)
  | some s =>
    have hkey : (s.reorder r).2.key = r.key :=
      (s.key_reorder r).trans (key_eq_of_state? hstate)
    have hfound : (t.channels.find? fun c => c.key == r.key) = some s := hstate
    have hput := length_waiting_putState (s.reorder r).2 t.channels
    rw [hkey, hfound, Option.elim_some] at hput
    have hreorder := s.length_reorder_le r
    show (s.reorder r).1.length +
      ((putState (s.reorder r).2 t.channels).flatMap ChannelState.waiting).length ≤
        (t.channels.flatMap ChannelState.waiting).length + 1
    omega

/-- The first channels of a tracker are those of a directory, and nothing waits in the others. -/
def Follows (t : Tracker) (d : Directory) : Prop :=
  ∃ states others, t.channels = states ++ others ∧ states.map ChannelState.key = d.keys ∧
    ∀ s ∈ others, s.waiting = []

theorem keys_rebuild (t : Tracker) (d : Directory) :
    (t.rebuild d).channels.map ChannelState.key = d.keys := by
  rw [rebuild, List.map_map]
  exact List.map_id'' t.key_stateOf d.keys

theorem follows_rebuild (t : Tracker) (d : Directory) : (t.rebuild d).Follows d :=
  ⟨(t.rebuild d).channels, [], (List.append_nil _).symm, t.keys_rebuild d, fun _ h => nomatch h⟩

theorem Follows.waiting_stateOf_of_notMem {key : UInt32} (h : t.Follows d) (hkey : key ∉ d.keys) :
    (t.stateOf key).waiting = [] := by
  obtain ⟨states, others, hchannels, hkeys, hothers⟩ := h
  rw [waiting_stateOf]
  cases hstate : t.state? key with
  | none => rfl
  | some s =>
    have hs : s ∈ states ++ others := hchannels ▸ List.mem_of_find?_eq_some hstate
    have hskey : s.key = key := key_eq_of_state? hstate
    rcases List.mem_append.1 hs with hs | hs
    · exact absurd (hkeys ▸ hskey ▸ List.mem_map_of_mem hs) hkey
    · exact hothers s hs

theorem Follows.put {s : ChannelState} (h : t.Follows d) (hs : s.key ∈ d.keys ∨ s.waiting = []) :
    (t.put s).Follows d := by
  obtain ⟨states, others, hchannels, hkeys, hothers⟩ := h
  by_cases hmem : s.key ∈ states.map ChannelState.key
  · refine ⟨putState s states, others, ?_, (map_key_putState hmem).trans hkeys, hothers⟩
    rw [Tracker.put, hchannels]
    exact putState_append_of_mem others hmem
  · have hwaiting : s.waiting = [] := hs.resolve_left (hkeys ▸ hmem)
    refine ⟨states, putState s others, ?_, hkeys, fun c hc => ?_⟩
    · rw [Tracker.put, hchannels]
      exact putState_append_of_notMem others hmem
    · rcases mem_putState hc with rfl | hc
      · exact hwaiting
      · exact hothers c hc

theorem Follows.observe (h : t.Follows d) (r : Record) : (t.observe r).2.Follows d := by
  show (t.put ((t.stateOf r.key).observe t.tolerance r).2).Follows d
  by_cases hmem : r.key ∈ d.keys
  · exact h.put (.inl ((t.key_observe r).symm ▸ hmem))
  · have hwaiting := h.waiting_stateOf_of_notMem hmem
    exact h.put (.inr ((ChannelState.waiting_observe _ _ _).trans hwaiting))

theorem Follows.observeAll (h : t.Follows d) (rs : List Record) : (t.observeAll rs).Follows d := by
  induction rs generalizing t with
  | nil => exact h
  | cons r rs ih => exact ih (h.observe r)

theorem Follows.reorder {r : Record} (h : t.Follows d) (hr : r.key ∈ d.keys) :
    (t.reorder r).2.Follows d := by
  rw [Tracker.reorder]
  cases hstate : t.state? r.key with
  | none => exact h
  | some s =>
    have hkey : (s.reorder r).2.key = r.key :=
      (s.key_reorder r).trans (key_eq_of_state? hstate)
    exact h.put (.inl (hkey ▸ hr))

/-- What still waits comes out channel by channel, in the order of the directory. -/
theorem Follows.flush (h : t.Follows d) :
    t.flush.1 = d.keys.flatMap fun key => (t.stateOf key).waiting := by
  obtain ⟨states, others, hchannels, hkeys, hothers⟩ := h
  have hdistinct : (states.map ChannelState.key).Nodup := hkeys ▸ d.distinct
  have hfound : ∀ s ∈ states, (t.stateOf s.key).waiting = s.waiting := by
    intro s hs
    have hstate : t.state? s.key = some s := by
      rw [state?, hchannels]
      exact find?_key others hdistinct hs
    rw [waiting_stateOf, hstate, Option.elim_some]
  have hnone : others.flatMap ChannelState.waiting = [] := List.flatMap_eq_nil_iff.2 hothers
  show t.channels.flatMap ChannelState.waiting = _
  rw [hchannels, List.flatMap_append, hnone, List.append_nil, ← hkeys, List.flatMap_map,
    List.flatMap_def, List.flatMap_def]
  exact congrArg List.flatten (List.map_congr_left fun s hs => (hfound s hs).symm)

end Tracker

end SeisFeed.Delivery
