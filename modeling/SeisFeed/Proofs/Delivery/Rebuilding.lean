import Mathlib.Data.List.Perm.Basic
import SeisFeed.Proofs.Delivery.Independence
/-!
# Following another directory

A tracker that is to follow another directory keeps the states of the channels that both have. They
can be taken out of the old list one by one, and the last of the list moved into each place that
falls vacant. What is left is in another order after every step, but as long as each channel has one
state, which holds of every tracker that operations lead to, a state is found wherever it has gone.
So taking over gives what a look-up of every channel in the old list gives, and from that follows
what a tracker knows afterwards.
-/

namespace SeisFeed.Delivery

open Waveform (Record)

namespace Tracker

variable {t : Tracker} {d : Directory} {key : UInt32} {capacity : Option Nat}

/-! ### Taking states over -/

/-- A list without the element at an index, into whose place the last one moves. -/
def swapRemove {α : Type} (xs : List α) (i : Nat) : List α :=
  (xs.getLast?.elim xs fun last => xs.set i last).dropLast

/-- The states of some channels, each taken out of a list of old ones, or made for a channel of
which there is none in what is left of the list. -/
def takeOver (capacity : Option Nat) : List ChannelState → List UInt32 → List ChannelState
  | _, [] => []
  | old, key :: keys =>
    match old.find? fun s => s.key == key with
    | none => ChannelState.fresh capacity key :: takeOver capacity old keys
    | some s => s :: takeOver capacity (swapRemove old (old.findIdx fun s => s.key == key)) keys

/-- Follows another directory by taking over the states of its channels one by one. -/
def realign (t : Tracker) (d : Directory) : Tracker :=
  { t with channels := takeOver t.reorderCapacity t.channels d.keys }

theorem perm_swapRemove {α : Type} {xs : List α} {i : Nat} (hi : i < xs.length) :
    (xs[i] :: swapRemove xs i).Perm xs := by
  rcases List.eq_nil_or_concat xs with rfl | ⟨front, last, rfl⟩
  · cases hi
  · simp only [List.concat_eq_append] at hi ⊢
    rw [List.length_append, List.length_singleton] at hi
    by_cases hfront : i < front.length
    · have hswap : swapRemove (front ++ [last]) i = front.set i last := by
        simp [swapRemove, hfront]
      have hset := (List.set_perm_cons_eraseIdx hfront last).cons front[i]
      have herase := (List.getElem_cons_eraseIdx_perm hfront).cons last
      rw [hswap, List.getElem_append_left hfront]
      exact hset.trans ((List.Perm.swap _ _ _).trans
        (herase.trans (List.perm_append_singleton last front).symm))
    · obtain rfl : i = front.length := by omega
      have hswap : swapRemove (front ++ [last]) front.length = front := by
        simp [swapRemove]
      rw [hswap, List.getElem_concat_length rfl]
      exact (List.perm_append_singleton last front).symm

example : swapRemove [1, 2, 3, 4] 1 = [1, 4, 3] := by decide

theorem find?_of_perm {old rest : List ChannelState} (hperm : old.Perm rest)
    (hdistinct : (old.map ChannelState.key).Nodup) (key : UInt32) :
    (old.find? fun s => s.key == key) = rest.find? fun s => s.key == key := by
  have hdistinct' : (rest.map ChannelState.key).Nodup := (hperm.map _).nodup_iff.1 hdistinct
  cases hfind : old.find? fun s => s.key == key with
  | some s =>
    have hkey : s.key = key := by simpa using List.find?_some hfind
    have hmem : s ∈ rest := hperm.subset (List.mem_of_find?_eq_some hfind)
    have hfound := find?_key [] hdistinct' hmem
    rw [List.append_nil, hkey] at hfound
    exact hfound.symm
  | none =>
    symm
    rw [List.find?_eq_none] at hfind ⊢
    exact fun s hs => hfind s (hperm.symm.subset hs)

theorem find?_swapRemove {old : List ChannelState} {s : ChannelState}
    (hdistinct : (old.map ChannelState.key).Nodup)
    (hfind : (old.find? fun s => s.key == key) = some s) :
    let rest := swapRemove old (old.findIdx fun s => s.key == key)
    (rest.map ChannelState.key).Nodup ∧ ∀ key' ≠ key,
      (rest.find? fun s => s.key == key') = old.find? fun s => s.key == key' := by
  intro rest
  have hkey : s.key = key := by simpa using List.find?_some hfind
  rw [List.find?_eq_getElem?_findIdx] at hfind
  obtain ⟨hlt, hs⟩ := List.getElem?_eq_some_iff.1 hfind
  have hperm := (perm_swapRemove hlt).symm
  rw [hs] at hperm
  refine ⟨((hperm.map ChannelState.key).nodup_iff.1 hdistinct).of_cons, fun key' hne => ?_⟩
  rw [find?_of_perm hperm hdistinct key', List.find?_cons_of_neg]
  simpa [hkey] using hne.symm

/-- Taking over finds for each channel the state that a look-up in the old list finds. -/
theorem takeOver_eq (capacity : Option Nat) {old : List ChannelState} {keys : List UInt32}
    (hdistinct : (old.map ChannelState.key).Nodup) (hkeys : keys.Nodup) :
    takeOver capacity old keys = keys.map fun key =>
      (old.find? fun s => s.key == key).getD (ChannelState.fresh capacity key) := by
  induction keys generalizing old with
  | nil => rfl
  | cons key keys ih =>
    obtain ⟨hnew, hkeys⟩ := List.nodup_cons.1 hkeys
    rw [takeOver, List.map_cons]
    cases hfind : old.find? fun s => s.key == key with
    | none =>
      dsimp only
      rw [ih hdistinct hkeys]
      rfl
    | some s =>
      obtain ⟨hrest, hothers⟩ := find?_swapRemove hdistinct hfind
      dsimp only
      rw [ih hrest hkeys, Option.getD_some]
      refine congrArg (s :: ·) (List.map_congr_left fun key' hkey' => ?_)
      have hne : key' ≠ key := fun h => hnew (h ▸ hkey')
      rw [hothers key' hne]

theorem Separate.realign_eq (h : t.Separate) (d : Directory) : t.realign d = t.rebuild d := by
  have htaken : takeOver t.reorderCapacity t.channels d.keys = d.keys.map t.stateOf :=
    takeOver_eq t.reorderCapacity h.distinct d.distinct
  rw [realign, htaken, Tracker.rebuild]

/-! ### Runs -/

theorem Separate.after (h : t.Separate) (ops : List Operation) : (t.after ops).Separate := by
  induction ops generalizing t with
  | nil => exact h
  | cons op ops ih => exact ih (h.perform op)

theorem perform_frame (t : Tracker) (op : Operation) :
    (t.perform op).2.tolerance = t.tolerance ∧
      (t.perform op).2.reorderCapacity = t.reorderCapacity := by
  cases op with
  | reorder r =>
    rw [perform, Tracker.reorder]
    cases t.state? r.key <;> exact ⟨rfl, rfl⟩
  | observe | x0Mismatch | flush | rebuild => exact ⟨rfl, rfl⟩

theorem after_frame (t : Tracker) (ops : List Operation) :
    (t.after ops).tolerance = t.tolerance ∧
      (t.after ops).reorderCapacity = t.reorderCapacity := by
  induction ops generalizing t with
  | nil => exact ⟨rfl, rfl⟩
  | cons op ops ih =>
    obtain ⟨htolerance, hcapacity⟩ := t.perform_frame op
    obtain ⟨htolerance', hcapacity'⟩ := ih (t.perform op).2
    exact ⟨htolerance'.trans htolerance, hcapacity'.trans hcapacity⟩

/-- Whether an operation leaves a tracker with the channels of a directory: it compares only records
of these, and follows no other directory. -/
def Operation.staysWith (d : Directory) : Operation → Prop
  | observe r => r.key ∈ d.keys
  | rebuild d' => d'.keys = d.keys
  | reorder _ | x0Mismatch _ | flush => True

theorem keys_perform {op : Operation} (h : t.channels.map ChannelState.key = d.keys)
    (hop : op.staysWith d) : (t.perform op).2.channels.map ChannelState.key = d.keys := by
  cases op with
  | observe r =>
    have hmem : ((t.stateOf r.key).observe t.tolerance r).2.key ∈
        t.channels.map ChannelState.key := by
      rw [h, t.key_observe r]
      exact hop
    exact (map_key_putState hmem).trans h
  | reorder r =>
    rw [perform, Tracker.reorder]
    cases hstate : t.state? r.key with
    | none => exact h
    | some s =>
      have hmem : (s.reorder r).2.key ∈ t.channels.map ChannelState.key := by
        rw [s.key_reorder r]
        exact List.mem_map_of_mem (List.mem_of_find?_eq_some hstate)
      exact (map_key_putState hmem).trans h
  | x0Mismatch r => exact h
  | flush =>
    rw [perform, Tracker.flush, List.map_map]
    exact h
  | rebuild d' => exact (t.keys_rebuild d').trans hop

theorem keys_after {ops : List Operation} (h : t.channels.map ChannelState.key = d.keys)
    (hops : ∀ op ∈ ops, op.staysWith d) : (t.after ops).channels.map ChannelState.key = d.keys := by
  induction ops generalizing t with
  | nil => exact h
  | cons op ops ih =>
    apply ih (keys_perform h (hops op List.mem_cons_self))
    exact fun op' hop' => hops op' (List.mem_cons_of_mem op hop')

/-- **What is kept when a tracker follows another directory.** In every tracker that operations lead
to each channel has one state, and taking the states over one by one gives the tracker that looks
each of them up. Afterwards the tracker tells of the channels of the directory, in its order: of one
that was tracked before exactly what it told before, of any other what is known at first. Nothing
changes when the directory is the one that is followed already, be it at once or after operations
that stay with its channels. -/
theorem rebuild_keeps_shared_channels (d₀ : Directory) (capacity : Option Nat) (tolerance : Float)
    (ops : List Operation) (d : Directory) :
    let t := ((new d₀ capacity).withTolerance tolerance).after ops
    let u := t.rebuild d
    (t.channels.map ChannelState.key).Nodup ∧
      t.realign d = u ∧
      u.channels.map ChannelState.key = d.keys ∧
      (∀ s ∈ t.channels, s.key ∈ d.keys → u.state? s.key = some s) ∧
      (∀ key ∈ d.keys, key ∉ t.channels.map ChannelState.key →
        u.state? key = some (ChannelState.fresh capacity key)) ∧
      (∀ key ∉ d.keys, u.state? key = none) ∧
      u.tolerance = tolerance ∧ u.reorderCapacity = capacity ∧
      (t.channels.map ChannelState.key = d.keys → u = t) ∧
      ∀ later, (∀ op ∈ later, op.staysWith d) → (u.after later).rebuild d = u.after later := by
  intro t u
  have hseparate : t.Separate := (separate_new d₀ capacity tolerance).after ops
  obtain ⟨htolerance, hcapacity⟩ := after_frame ((new d₀ capacity).withTolerance tolerance) ops
  have hkeys : u.channels.map ChannelState.key = d.keys := t.keys_rebuild d
  refine ⟨hseparate.distinct, hseparate.realign_eq d, hkeys, fun s hs hkey => ?_,
    fun key hkey hnew => ?_, fun key hkey => ?_, htolerance, hcapacity, rebuild_of_keys,
    fun later hlater => ?_⟩
  · rw [t.state?_rebuild hkey, stateOf_of_state? (state?_of_mem hseparate.distinct hs)]
  · have hnone : t.state? key = none := by
      rw [state?, List.find?_eq_none]
      intro s hs hsame
      exact hnew (beq_iff_eq.1 hsame ▸ List.mem_map_of_mem hs)
    have hlimit : t.reorderCapacity = capacity := hcapacity
    rw [t.state?_rebuild hkey, stateOf, hnone, Option.getD_none, hlimit]
  · rw [state?_rebuild_eq, if_neg hkey]
  · exact rebuild_of_keys (keys_after hkeys hlater)

end Tracker

end SeisFeed.Delivery
