import SeisFeed.Waveform.Record
/-!
# Cutting a record to a window

What a cut leaves of a record is nothing, or the samples between two places; which of these it is,
and where the places are, is found by floating-point arithmetic, of which nothing is used but that
no place lies behind the samples (`samplesBefore_le`). The other fields follow from the places.

A record that tells the value after its last sample has one more value than it has samples. A cut
leaves a stretch of these values too, so a record that has been cut any number of times still ends
with a value that came next.
-/

namespace SeisFeed.Waveform.Record

variable {r r' : Record} {first last : Nat}

/-- The samples and the value that comes after them, if the record tells it. -/
def values? (r : Record) : Option (List Int32) :=
  r.lastValue.map fun next => r.samples ++ [next]

/-- What a cut leaves of a record, if it leaves samples. -/
def trim? (r : Record) (start stop : Float) : Option Record :=
  let r := r.trim start stop
  if r.hasSamples then some r else none

/-- What cuts to some windows, one after the other, leave of a record, if each leaves samples. -/
def trimAll? (r : Record) (windows : List (Float × Float)) : Option Record :=
  windows.foldlM (fun r window => r.trim? window.1 window.2) r

/-- A record of which something is left when it is cut has a rate. -/
theorem trim_cases (r : Record) (start stop : Float) :
    r.trim start stop = r.emptied ∨
      0 < r.sampleRate ∧ ∃ first last, first < last ∧ last ≤ r.samples.length ∧
        r.trim start stop = r.slice first last := by
  rw [trim]
  split
  · exact .inl rfl
  · next hwhole =>
    have hrate : 0 < r.sampleRate := by
      rw [not_or, not_or] at hwhole
      exact Int32.not_le.1 hwhole.2.1
    dsimp only
    split
    · exact .inl rfl
    · next hplaces =>
      exact .inr ⟨hrate, _, _, Nat.not_le.1 hplaces, r.samplesBefore_le stop, rfl⟩

theorem hasSamples_emptied (r : Record) : r.emptied.hasSamples = false := rfl

theorem hasSamples_slice (hlt : first < last) (hle : last ≤ r.samples.length) :
    (r.slice first last).hasSamples = true := by
  have hlength : 0 < (r.slice first last).samples.length := by
    rw [slice, List.length_drop, List.length_take]
    omega
  simpa [hasSamples] using List.ne_nil_of_length_pos hlength

/-- A slice, told by what stands at its places. When nothing is cut off at the end, the value after
the last sample stands at the second. -/
theorem slice_eq (hlt : first < last) (hle : last ≤ r.samples.length) :
    r.slice first last = { r with
      time := r.time + Float.ofNat first / r.rate
      samples := (r.samples.take last).drop first
      x0 := r.x0.bind fun _ => r.samples[first]?
      lastValue := r.lastValue.bind fun next => (r.samples ++ [next])[last]? } := by
  have hhead : ((r.samples.take last).drop first).head? = r.samples[first]? := by
    rw [List.head?_drop, List.getElem?_take_of_lt hlt]
  have hnext : (r.slice first last).lastValue =
      r.lastValue.bind fun next => (r.samples ++ [next])[last]? := by
    rw [slice]
    rcases Nat.lt_or_eq_of_le hle with hinside | rfl
    · have hcut : r.samples[last]? = some r.samples[last] := List.getElem?_eq_getElem hinside
      cases r.lastValue <;> simp [hcut, List.getElem?_append_left hinside]
    · cases r.lastValue <;> simp
  rw [← hnext, ← hhead]
  rfl

/-- A slice has a stretch of the values. -/
theorem values?_slice (hlt : first < last) (hle : last ≤ r.samples.length) :
    (r.slice first last).values? = r.values?.map fun xs => (xs.take (last + 1)).drop first := by
  rw [slice_eq hlt hle, values?, values?]
  cases r.lastValue with
  | none => rfl
  | some next =>
    have hfits : first ≤ (r.samples.take last).length := by
      rw [List.length_take]
      omega
    have hmore : last < (r.samples ++ [next]).length := by
      rw [List.length_append, List.length_singleton]
      omega
    have htake : (r.samples ++ [next]).take (last + 1) =
        r.samples.take last ++ [(r.samples ++ [next])[last]] := by
      rw [List.take_add_one, List.take_append_of_le_length hle, List.getElem?_eq_getElem hmore]
      rfl
    simp only [Option.bind_some, Option.map_some, List.getElem?_eq_getElem hmore, htake]
    rw [List.drop_append_of_le_length hfits]

theorem eq_slice_of_hasSamples {start stop : Float}
    (h : (r.trim start stop).hasSamples = true) : ∃ first last, first < last ∧
      last ≤ r.samples.length ∧ r.trim start stop = r.slice first last := by
  rcases r.trim_cases start stop with hempty | ⟨-, hslice⟩
  · rw [hempty, hasSamples_emptied] at h
    exact nomatch h
  · exact hslice

theorem infix_of_trim? {start stop : Float} {xs : List Int32} (h : r.trim? start stop = some r')
    (hxs : r.values? = some xs) : ∃ xs', r'.values? = some xs' ∧ xs' <:+: xs := by
  rw [trim?] at h
  split at h
  · next hsome =>
    obtain rfl := Option.some.inj h
    obtain ⟨first, last, hlt, hle, hslice⟩ := eq_slice_of_hasSamples hsome
    rw [hslice, values?_slice hlt hle, hxs]
    have hdrop := List.drop_suffix first (xs.take (last + 1))
    exact ⟨_, rfl, hdrop.isInfix.trans (List.take_prefix _ _).isInfix⟩
  · cases h

theorem infix_of_trimAll? {windows : List (Float × Float)} {xs : List Int32}
    (h : r.trimAll? windows = some r') (hxs : r.values? = some xs) :
    ∃ xs', r'.values? = some xs' ∧ xs' <:+: xs := by
  induction windows generalizing r xs with
  | nil =>
    obtain rfl := Option.some.inj h
    exact ⟨xs, hxs, List.infix_rfl⟩
  | cons window windows ih =>
    obtain ⟨cut, hcut, hrest⟩ := Option.bind_eq_some_iff.1 h
    obtain ⟨xs₁, hxs₁, hinfix₁⟩ := infix_of_trim? hcut hxs
    obtain ⟨xs₂, hxs₂, hinfix₂⟩ := ih hrest hxs₁
    exact ⟨xs₂, hxs₂, hinfix₂.trans hinfix₁⟩

/-- **What a cut leaves.** Whatever the bounds, a record that is cut either loses its samples, and
nothing else changes; or it keeps those between two places. Then its first value, if it tells one,
is its first sample again, the value that it says comes next is what stood at the second place,
among the samples or as the value after them, and apart from its time nothing else changes. So after
any cuts that leave samples, the samples and the value after them are a stretch of what they
were. -/
theorem trim_keeps_stretch (r : Record) (start stop : Float) :
    let r' := r.trim start stop
    (r'.hasSamples = false ∧ r' = { r with samples := [] } ∨
      r'.hasSamples = true ∧ ∃ first last, first < last ∧ last ≤ r.samples.length ∧
        r' = { r with
          time := r.time + Float.ofNat first / r.rate
          samples := (r.samples.take last).drop first
          x0 := r.x0.bind fun _ => r.samples[first]?
          lastValue := r.lastValue.bind fun next => (r.samples ++ [next])[last]? }) ∧
      ∀ windows left, r.trimAll? windows = some left → ∀ next, r.lastValue = some next →
        ∃ next', left.lastValue = some next' ∧
          left.samples ++ [next'] <:+: r.samples ++ [next] := by
  intro r'
  refine ⟨?_, fun windows left hleft next hnext => ?_⟩
  · rcases r.trim_cases start stop with hempty | ⟨-, first, last, hlt, hle, hslice⟩
    · refine .inl ⟨?_, hempty⟩
      rw [show r' = r.emptied from hempty, hasSamples_emptied]
    · refine .inr ⟨?_, first, last, hlt, hle, hslice.trans (slice_eq hlt hle)⟩
      rw [show r' = r.slice first last from hslice, hasSamples_slice hlt hle]
  · have hvalues : r.values? = some (r.samples ++ [next]) := by rw [values?, hnext, Option.map_some]
    obtain ⟨xs', hxs', hinfix⟩ := infix_of_trimAll? hleft hvalues
    obtain ⟨next', hnext', rfl⟩ := Option.map_eq_some_iff.1 hxs'
    exact ⟨next', hnext', hinfix⟩

example :
    let r : Record := { blank with
      time := 100, sampleRate := 10, x0 := some 1, lastValue := some 7
      samples := [1, 2, 3, 4, 5, 6] }
    ((r.trim 100.1 100.3).samples, (r.trim 100.1 100.3).x0, (r.trim 100.1 100.3).lastValue) =
      ([2, 3], some 2, some 4) := by decide +kernel

end SeisFeed.Waveform.Record
