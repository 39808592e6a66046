import SeisFeed.Proofs.Delivery.Keeping
/-!
# Channels are independent

A tracker keeps the states of all channels in one list, which grows when a record of a new channel
is observed and is laid out anew when another directory is to be followed. Still no channel sees
anything of the others. Whoever looks only at one channel sees of a run of operations those on its
own records, and of a flush its own records; to them a run looks the same whether the operations on
the records of other channels take place or not.
-/

namespace SeisFeed.Delivery

open Waveform (Record)

namespace Tracker

variable {t t' : Tracker} {key : UInt32}

/-! ### Looking up a state -/

theorem find?_putState_self (s : ChannelState) (states : List ChannelState) :
    ((putState s states).find? fun c => c.key == s.key) = some s := by
  induction states with
  | nil => simp [putState]
  | cons c cs ih =>
    by_cases hc : c.key = s.key
    · simp [putState, hc]
    · simp [putState, hc, ih]

theorem find?_putState_of_ne {s : ChannelState} (hkey : s.key ≠ key) (states : List ChannelState) :
    ((putState s states).find? fun c => c.key == key) = states.find? fun c => c.key == key := by
  induction states with
  | nil => simp [putState, hkey]
  | cons c cs ih =>
    by_cases hc : c.key = s.key
    · simp [putState, hc, hkey]
    · simp [putState, hc, List.find?_cons, ih]

theorem state?_put_self (t : Tracker) {s : ChannelState} (hkey : s.key = key) :
    (t.put s).state? key = some s := by
  subst hkey
  exact find?_putState_self s t.channels

theorem state?_put_of_ne (t : Tracker) {s : ChannelState} (hkey : s.key ≠ key) :
    (t.put s).state? key = t.state? key :=
  find?_putState_of_ne hkey t.channels

theorem state?_rebuild_eq (t : Tracker) (d : Directory) (key : UInt32) :
    (t.rebuild d).state? key = if key ∈ d.keys then some (t.stateOf key) else none := by
  split
  · next hkey => exact t.state?_rebuild hkey
  · next hkey =>
    rw [state?, List.find?_eq_none]
    intro s hs hsame
    obtain ⟨k, hk, rfl⟩ := List.mem_map.1 hs
    apply hkey
    rwa [← beq_iff_eq.1 hsame, t.key_stateOf k]

theorem state?_flush (t : Tracker) (key : UInt32) :
    t.flush.2.state? key = (t.state? key).map ChannelState.drained := by
  have hsame : ((fun s : ChannelState => s.key == key) ∘ ChannelState.drained) =
      fun s => s.key == key := by
    funext s
    rfl
  rw [flush, state?, List.find?_map, hsame, state?]

theorem observe_eq_put (t : Tracker) (r : Record) :
    (t.observe r).2 = t.put ((t.stateOf r.key).observe t.tolerance r).2 := rfl

/-! ### Each channel has a state of its own -/

/-- Every channel has one state, and only its own records wait in it. -/
structure Separate (t : Tracker) : Prop where
  distinct : (t.channels.map ChannelState.key).Nodup
  own : ∀ s ∈ t.channels, ∀ r ∈ s.waiting, r.key = s.key

theorem separate_new (d : Directory) (capacity : Option Nat) (tolerance : Float) :
    ((new d capacity).withTolerance tolerance).Separate := by
  have hchannels : ((new d capacity).withTolerance tolerance).channels =
      d.keys.map (ChannelState.fresh capacity) := rfl
  refine ⟨?_, ?_⟩
  · rw [hchannels, List.map_map]
    exact (List.map_id d.keys).symm ▸ d.distinct
  · intro s hs r hr
    obtain ⟨k, -, rfl⟩ := List.mem_map.1 (hchannels ▸ hs)
    simp at hr

theorem Separate.own_of_state? {s : ChannelState} {r : Record} (h : t.Separate)
    (hstate : t.state? key = some s) (hr : r ∈ s.waiting) : r.key = key := by
  rw [h.own s (List.mem_of_find?_eq_some hstate) r hr]
  exact key_eq_of_state? hstate

theorem Separate.own_of_stateOf {r : Record} (h : t.Separate) (hr : r ∈ (t.stateOf key).waiting) :
    r.key = key := by
  rw [waiting_stateOf] at hr
  cases hstate : t.state? key with
  | none => simp [hstate] at hr
  | some s =>
    rw [hstate] at hr
    exact h.own_of_state? hstate hr

theorem Separate.put {s : ChannelState} (h : t.Separate) (hown : ∀ r ∈ s.waiting, r.key = s.key) :
    (t.put s).Separate := by
  refine ⟨?_, ?_⟩
  · by_cases hmem : s.key ∈ t.channels.map ChannelState.key
    · show ((putState s t.channels).map ChannelState.key).Nodup
      rw [map_key_putState hmem]
      exact h.distinct
    · have hput : putState s t.channels = t.channels ++ [s] := by
        simpa [putState] using putState_append_of_notMem [] hmem
      show ((putState s t.channels).map ChannelState.key).Nodup
      rw [hput, List.map_append]
      exact List.nodup_append.2 ⟨h.distinct, by simp, by simpa using hmem⟩
  · intro c hc
    rcases mem_putState hc with rfl | hc
    · exact hown
    · exact h.own c hc

theorem Separate.observe (h : t.Separate) (r : Record) : (t.observe r).2.Separate := by
  rw [observe_eq_put]
  apply h.put
  intro x hx
  rw [ChannelState.waiting_observe] at hx
  rw [t.key_observe r]
  exact h.own_of_stateOf hx

theorem Separate.reorder (h : t.Separate) (r : Record) : (t.reorder r).2.Separate := by
  rw [Tracker.reorder]
  cases hstate : t.state? r.key with
  | none => exact h
  | some s =>
    apply h.put
    intro x hx
    rw [s.key_reorder r, key_eq_of_state? hstate]
    rcases ChannelState.mem_reorder (.inr hx) with rfl | hx
    · rfl
    · exact h.own_of_state? hstate hx

theorem Separate.flush (h : t.Separate) : t.flush.2.Separate := by
  refine ⟨?_, ?_⟩
  · rw [Tracker.flush, List.map_map]
    exact h.distinct
  · intro s hs r hr
    obtain ⟨c, -, rfl⟩ := List.mem_map.1 hs
    simp [ChannelState.waiting_drained] at hr

theorem Separate.rebuild (h : t.Separate) (d : Directory) : (t.rebuild d).Separate := by
  have hchannels : (t.rebuild d).channels = d.keys.map t.stateOf := rfl
  refine ⟨?_, ?_⟩
  · rw [t.keys_rebuild d]
    exact d.distinct
  · intro s hs r hr
    obtain ⟨k, -, rfl⟩ := List.mem_map.1 (hchannels ▸ hs)
    rw [t.key_stateOf k]
    exact h.own_of_stateOf hr

theorem Separate.filter_flush (h : t.Separate) (key : UInt32) :
    t.flush.1.filter (fun r => r.key == key) = (t.state? key).elim [] ChannelState.waiting := by
  obtain ⟨channels, tolerance, capacity⟩ := t
  obtain ⟨hdistinct, hown⟩ := h
  show (channels.flatMap ChannelState.waiting).filter _ =
    (channels.find? fun s => s.key == key).elim [] ChannelState.waiting
  induction channels with
  | nil => rfl
  | cons s states ih =>
    obtain ⟨hs, hstates⟩ := List.nodup_cons.1 hdistinct
    have hrest := ih hstates fun c hc => hown c (List.mem_cons_of_mem s hc)
    have hfront : ∀ r ∈ s.waiting, r.key = s.key := hown s List.mem_cons_self
    rw [List.flatMap_cons, List.filter_append, hrest, List.find?_cons]
    by_cases hkey : s.key = key
    · -- no other state has the key
      have hnone : (states.find? fun c => c.key == key) = none := by
        rw [List.find?_eq_none]
        intro c hc hsame
        apply hs
        rw [hkey, ← beq_iff_eq.1 hsame]
        exact List.mem_map_of_mem hc
      have hall : s.waiting.filter (fun r => r.key == key) = s.waiting := by
        rw [List.filter_eq_self]
        intro r hr
        simp [hfront r hr, hkey]
      simp [hnone, hall, hkey]
    · have hnone : s.waiting.filter (fun r => r.key == key) = [] := by
        rw [List.filter_eq_nil_iff]
        intro r hr
        simp [hfront r hr, hkey]
      have hkey' : (s.key == key) = false := by simpa using hkey
      simp [hnone, hkey']

/-! ### Runs of operations -/

/-- What can be done with a tracker. -/
inductive Operation where
  | observe (r : Record)
  | reorder (r : Record)
  | x0Mismatch (r : Record)
  | flush
  | rebuild (d : Directory)

/-- Whether an operation is on a record of a channel, or on all channels. -/
def Operation.concerns (key : UInt32) : Operation → Bool
  | observe r | reorder r | x0Mismatch r => r.key == key
  | flush | rebuild _ => true

/-- What an operation on a tracker answers. -/
inductive Reply where
  | compared (found : Continuity)
  | reordered (released : List Record)
  | mismatched (differs : Bool)
  | flushed (released : List Record)
  | rebuilt

/-- What is seen of an answer from one channel: of a flush only the channel's own records. -/
def Reply.seenFrom (key : UInt32) : Reply → Reply
  | flushed released => flushed (released.filter fun r => r.key == key)
  | reply => reply

def perform (t : Tracker) : Operation → Reply × Tracker
  | .observe r => (.compared (t.observe r).1, (t.observe r).2)
  | .reorder r => (.reordered (t.reorder r).1, (t.reorder r).2)
  | .x0Mismatch r => (.mismatched (t.x0Mismatch r), t)
  | .flush => (.flushed t.flush.1, t.flush.2)
  | .rebuild d => (.rebuilt, t.rebuild d)

/-- An operation of a run, with its answer and the tracker behind it. -/
structure Event where
  operation : Operation
  reply : Reply
  tracker : Tracker

def trace (t : Tracker) : List Operation → List Event
  | [] => []
  | op :: ops => ⟨op, (t.perform op).1, (t.perform op).2⟩ :: trace (t.perform op).2 ops

/-- The tracker behind a run. -/
def after (t : Tracker) (ops : List Operation) : Tracker :=
  ops.foldl (fun t op => (t.perform op).2) t

/-- What is seen of a run from one channel: the operations on its own records and on all channels,
with their answers and the state of the channel behind each. -/
def seenFrom (key : UInt32) (events : List Event) :
    List (Operation × Reply × Option ChannelState) :=
  (events.filter fun e => e.operation.concerns key).map fun e =>
    (e.operation, e.reply.seenFrom key, e.tracker.state? key)

theorem Separate.perform (h : t.Separate) (op : Operation) : (t.perform op).2.Separate := by
  cases op with
  | observe r => exact h.observe r
  | reorder r => exact h.reorder r
  | x0Mismatch r => exact h
  | flush => exact h.flush
  | rebuild d => exact h.rebuild d

/-! ### Two runs side by side -/

/-- Two trackers that are the same to one channel. -/
structure SameTo (key : UInt32) (t t' : Tracker) : Prop where
  state : t.state? key = t'.state? key
  tolerance : t.tolerance = t'.tolerance
  capacity : t.reorderCapacity = t'.reorderCapacity

theorem SameTo.stateOf (h : SameTo key t t') : t.stateOf key = t'.stateOf key := by
  rw [Tracker.stateOf, Tracker.stateOf, h.state, h.capacity]

theorem SameTo.put {s : ChannelState} (h : SameTo key t t') (hkey : s.key = key) :
    SameTo key (t.put s) (t'.put s) := by
  refine ⟨?_, h.tolerance, h.capacity⟩
  rw [t.state?_put_self hkey, t'.state?_put_self hkey]

theorem SameTo.put_other {s : ChannelState} (h : SameTo key t t') (hkey : s.key ≠ key) :
    SameTo key (t.put s) t' :=
  ⟨(t.state?_put_of_ne hkey).trans h.state, h.tolerance, h.capacity⟩

theorem SameTo.perform_other {op : Operation} (h : SameTo key t t')
    (hother : op.concerns key = false) : SameTo key (t.perform op).2 t' := by
  cases op with
  | observe r =>
    have hkey : r.key ≠ key := by simpa [Operation.concerns] using hother
    rw [Tracker.perform, observe_eq_put]
    apply h.put_other
    rwa [t.key_observe r]
  | reorder r =>
    have hkey : r.key ≠ key := by simpa [Operation.concerns] using hother
    rw [Tracker.perform, Tracker.reorder]
    cases hstate : t.state? r.key with
    | none => exact h
    | some s =>
      apply h.put_other
      rwa [s.key_reorder r, key_eq_of_state? hstate]
  | x0Mismatch r => exact h
  | flush => simp [Operation.concerns] at hother
  | rebuild d => simp [Operation.concerns] at hother

theorem SameTo.observe {r : Record} (h : SameTo r.key t t') :
    (t.observe r).1 = (t'.observe r).1 ∧ SameTo r.key (t.observe r).2 (t'.observe r).2 := by
  have hput : SameTo r.key (t.observe r).2
      (t'.put ((t.stateOf r.key).observe t.tolerance r).2) := h.put (t.key_observe r)
  rw [h.stateOf, h.tolerance] at hput
  refine ⟨?_, hput⟩
  simp only [Tracker.observe, h.stateOf, h.tolerance]

theorem SameTo.reorder {r : Record} (h : SameTo r.key t t') :
    (t.reorder r).1 = (t'.reorder r).1 ∧ SameTo r.key (t.reorder r).2 (t'.reorder r).2 := by
  rw [Tracker.reorder, Tracker.reorder, ← h.state]
  cases hstate : t.state? r.key with
  | none => exact ⟨rfl, h⟩
  | some s =>
    refine ⟨rfl, h.put ?_⟩
    rw [s.key_reorder r, key_eq_of_state? hstate]

theorem SameTo.flush (h : SameTo key t t') : SameTo key t.flush.2 t'.flush.2 := by
  refine ⟨?_, h.tolerance, h.capacity⟩
  rw [state?_flush, state?_flush, h.state]

theorem SameTo.rebuild (h : SameTo key t t') (d : Directory) :
    SameTo key (t.rebuild d) (t'.rebuild d) := by
  refine ⟨?_, h.tolerance, h.capacity⟩
  rw [state?_rebuild_eq, state?_rebuild_eq, h.stateOf]

/-- What is done with a channel's own record, or with all channels, is answered alike on two
trackers that are the same to the channel, and they stay so. -/
theorem SameTo.perform {op : Operation} (h : SameTo key t t') (ht : t.Separate) (ht' : t'.Separate)
    (hown : op.concerns key = true) :
    (t.perform op).1.seenFrom key = (t'.perform op).1.seenFrom key ∧
      SameTo key (t.perform op).2 (t'.perform op).2 := by
  cases op with
  | observe r =>
    obtain rfl : r.key = key := by simpa [Operation.concerns] using hown
    obtain ⟨hfound, hafter⟩ := h.observe
    exact ⟨congrArg (fun found => (Reply.compared found).seenFrom r.key) hfound, hafter⟩
  | reorder r =>
    obtain rfl : r.key = key := by simpa [Operation.concerns] using hown
    obtain ⟨hreleased, hafter⟩ := h.reorder
    exact ⟨congrArg (fun rs => (Reply.reordered rs).seenFrom r.key) hreleased, hafter⟩
  | x0Mismatch r =>
    obtain rfl : r.key = key := by simpa [Operation.concerns] using hown
    refine ⟨?_, h⟩
    simp only [Tracker.perform, x0Mismatch, h.state]
  | flush =>
    refine ⟨?_, h.flush⟩
    simp only [Tracker.perform, Reply.seenFrom, ht.filter_flush, ht'.filter_flush, h.state]
  | rebuild d => exact ⟨rfl, h.rebuild d⟩

theorem SameTo.seenFrom_trace (h : SameTo key t t') (ht : t.Separate) (ht' : t'.Separate)
    (ops : List Operation) :
    let own := ops.filter (·.concerns key)
    seenFrom key (t.trace ops) = seenFrom key (t'.trace own) ∧
      SameTo key (t.after ops) (t'.after own) := by
  induction ops generalizing t t' with
  | nil => exact ⟨rfl, h⟩
  | cons op ops ih =>
    cases hown : op.concerns key with
    | false =>
      obtain ⟨hseen, hafter⟩ := ih (h.perform_other hown) (ht.perform op) ht'
      rw [List.filter_cons_of_neg (by simp [hown])]
      refine ⟨?_, hafter⟩
      rw [← hseen]
      simp [trace, seenFrom, hown]
    | true =>
      obtain ⟨hreply, hsame⟩ := h.perform ht ht' hown
      obtain ⟨hseen, hafter⟩ := ih hsame (ht.perform op) (ht'.perform op)
      rw [List.filter_cons_of_pos hown]
      refine ⟨?_, hafter⟩
      simp only [seenFrom] at hseen
      simp [trace, seenFrom, hown, hreply, hsame.state, hseen]

/-- **Channels do not interfere.** Take a run of operations on a tracker, and leave out all that are
on records of other channels than one. From that channel the same is seen of both runs: its records
are compared, released and checked alike, each flush releases the same of them in the same order,
and its state is the same behind every operation and in the end. -/
theorem channel_sees_only_itself (d : Directory) (capacity : Option Nat) (tolerance : Float)
    (ops : List Operation) (key : UInt32) :
    let t := (new d capacity).withTolerance tolerance
    let own := ops.filter (·.concerns key)
    seenFrom key (t.trace ops) = seenFrom key (t.trace own) ∧
      (t.after ops).state? key = (t.after own).state? key := by
  intro t own
  have ht : t.Separate := separate_new d capacity tolerance
  have hsame : SameTo key t t := ⟨rfl, rfl, rfl⟩
  obtain ⟨hseen, hafter⟩ := hsame.seenFrom_trace ht ht ops
  exact ⟨hseen, hafter.state⟩

end Tracker

end SeisFeed.Delivery
