import SeisFeed.Proofs.Channel.Listing
/-!
# Directories that come from a list

A directory is made from a list of channels, or read from the body that announces one, and others
are made from it by choosing a type of data and by selecting with patterns. None of this brings in a
channel, repeats one or moves one before another: networks aside, what is left is a choice among the
first entries of each key, in the order of the list. With each key there once, all look-ups by key
meet at one channel, and what is found by a name can be called by it.
-/

namespace SeisFeed

open Wire (Bytes)

/-- What a list of channels says of one: all but its network. -/
def Channel.entry (c : Channel) : UInt32 × String :=
  (c.key, c.name)

/-- Two names are the same but for the case of their ASCII letters. -/
def SameName (a b : String) : Prop :=
  a.toList.map Char.toLower = b.toList.map Char.toLower

namespace Directory

/-- A directory that comes from a list of channels by any number of steps. -/
inductive From (cs : List Channel) : Directory → Prop
  | list : From cs (ofList cs)
  | body {body : Bytes} {d : Directory} (hlisted : listed? body = some cs)
      (hparse : parse body = .ok d) : From cs d
  | type {d : Directory} (h : From cs d) (code : UInt8) : From cs (d.filterByType code)
  | subset {d s : Directory} {patterns network : String} (h : From cs d)
      (hsubset : d.subset patterns network = .ok s) : From cs s

variable {cs : List Channel} {d : Directory} {key : UInt32} {name : String}

/-! ### What is left of the list -/

theorem map_entry_selectBy_sublist (d : Directory) (ps : List Pattern) :
    ((d.selectBy ps).channels.map Channel.entry).Sublist (d.channels.map Channel.entry) := by
  have hsame : (d.channels.filter fun c => ps.any fun p => p.matchesName c.name).map Channel.entry =
      (d.selectBy ps).channels.map Channel.entry := by
    rw [← List.forall₂_eq_eq_eq, List.forall₂_map_left_iff, List.forall₂_map_right_iff]
    exact (forall₂_selectBy ps d.channels).imp fun _ _ h => Prod.ext h.key.symm h.name.symm
  rw [← hsame]
  exact List.filter_sublist.map Channel.entry

theorem From.sublist (h : From cs d) :
    (d.channels.map Channel.entry).Sublist ((firstPerKey [] cs).map Channel.entry) := by
  induction h with
  | list => exact .refl _
  | body hlisted hparse =>
    obtain ⟨cs', hlisted', rfl⟩ := parse_eq_ok_iff.1 hparse
    obtain rfl := Option.some.inj (hlisted.symm.trans hlisted')
    exact .refl _
  | type _ code ih => exact (List.filter_sublist.map Channel.entry).trans ih
  | subset _ hsubset ih =>
    obtain ⟨ps, -, rfl⟩ := subset_eq_ok_iff.1 hsubset
    exact (map_entry_selectBy_sublist _ ps).trans ih

theorem From.exists_kept (h : From cs d) :
    ∃ kept : List Channel, kept.Sublist (cs.eraseDupsBy fun c d => c.key == d.key) ∧
      (∀ c ∈ kept, cs.find? (fun d => d.key == c.key) = some c) ∧
      d.channels.map Channel.entry = kept.map Channel.entry := by
  obtain ⟨kept, hkept, hentries⟩ := List.sublist_map_iff.1 h.sublist
  refine ⟨kept, ?_, fun c hc => (mem_firstPerKey_iff.1 (hkept.subset hc)).2, hentries⟩
  rw [firstPerKey_eq_eraseDupsBy] at hkept
  simpa using hkept

/-! ### Looking up -/

theorem position?_eq_none_iff (d : Directory) (key : UInt32) :
    d.position? key = none ↔ ∀ c ∈ d.channels, c.key ≠ key := by
  simp [position?]

theorem place_unique {i j : Nat} {c c' : Channel} (hi : d.channels[i]? = some c)
    (hj : d.channels[j]? = some c') (hkey : c'.key = c.key) : j = i := by
  have hi' : d.keys[i]? = some c.key := by
    rw [keys, List.getElem?_map, hi]
    rfl
  have hj' : d.keys[j]? = some c.key := by
    rw [keys, List.getElem?_map, hj]
    exact congrArg some hkey
  obtain ⟨hlt, -⟩ := List.getElem?_eq_some_iff.1 hj'
  exact (List.getElem?_inj hlt d.distinct).1 (hj'.trans hi'.symm)

theorem position?_of_getElem? {i : Nat} {c : Channel} (hi : d.channels[i]? = some c) :
    d.position? c.key = some i := by
  cases h : d.position? c.key with
  | none => exact absurd rfl ((d.position?_eq_none_iff c.key).1 h c (List.mem_of_getElem? hi))
  | some j =>
    obtain ⟨hlt, hkey, -⟩ := List.findIdx?_eq_some_iff_getElem.1 h
    have hplace := place_unique hi (List.getElem?_eq_getElem hlt) (by simpa using hkey)
    exact congrArg some hplace

theorem isSome_lookupKey (d : Directory) (name : String) :
    (d.lookupKey name).isSome = true ↔ ∃ c ∈ d.channels, SameName c.name name := by
  simp [lookupKey, SameName, Text.sameCaseless]

theorem lookupName_of_lookupKey (h : d.lookupKey name = some key) :
    ∃ found, d.lookupName key = some found ∧ SameName found name := by
  obtain ⟨c, hfind, rfl⟩ := Option.map_eq_some_iff.1 h
  have hget := (d.get?_eq_some_iff c.key c).2 ⟨List.mem_of_find?_eq_some hfind, rfl⟩
  refine ⟨c.name, congrArg (Option.map Channel.name) hget, ?_⟩
  simpa [SameName, Text.sameCaseless] using List.find?_some hfind

/-- Every look-up by a key comes to the one channel that has it, at its place. -/
def MeetAt (d : Directory) (key : UInt32) (i : Nat) (c : Channel) : Prop :=
  (d.channels[i]? = some c ∧ c.key = key ∧
    ∀ j c', d.channels[j]? = some c' → c'.key = key → j = i) ∧
  d.position? key = some i ∧ d.get? key = some c ∧ d.lookupName key = some c.name

theorem meetAt {i : Nat} {c : Channel} (hi : d.channels[i]? = some c) : d.MeetAt c.key i c := by
  have hget := (d.get?_eq_some_iff c.key c).2 ⟨List.mem_of_getElem? hi, rfl⟩
  exact ⟨⟨hi, rfl, fun j c' hj hkey => place_unique hi hj hkey⟩, position?_of_getElem? hi, hget,
    congrArg (Option.map Channel.name) hget⟩

/-- **What comes from a list.** Whatever types are chosen and whatever is selected, a directory has
each key once, and its channels are, networks aside, some of the first entries of each key in the
list, in order. So all look-ups by a key meet at the one channel that has it, or find nothing, and a
name is found just where a channel has it in any case; what is found is then called by that name. -/
theorem lookups_meet (h : From cs d) :
    d.keys.Nodup ∧
    (∃ kept : List Channel, kept.Sublist (cs.eraseDupsBy fun c d => c.key == d.key) ∧
      (∀ c ∈ kept, cs.find? (fun d => d.key == c.key) = some c) ∧
      d.channels.map Channel.entry = kept.map Channel.entry) ∧
    (∀ key, (∃ i c, d.MeetAt key i c) ∨
      (∀ c ∈ d.channels, c.key ≠ key) ∧ d.position? key = none ∧ d.get? key = none ∧
        d.lookupName key = none) ∧
    ∀ name, ((d.lookupKey name).isSome = true ↔ ∃ c ∈ d.channels, SameName c.name name) ∧
      ∀ key, d.lookupKey name = some key →
        ∃ found, d.lookupName key = some found ∧ SameName found name := by
  refine ⟨d.distinct, h.exists_kept, fun key => ?_, fun name => ?_⟩
  · by_cases hkey : ∃ c ∈ d.channels, c.key = key
    · obtain ⟨c, hc, rfl⟩ := hkey
      obtain ⟨i, hi⟩ := List.mem_iff_getElem?.1 hc
      exact .inl ⟨i, c, meetAt hi⟩
    · have hnone : ∀ c ∈ d.channels, c.key ≠ key := fun c hc heq => hkey ⟨c, hc, heq⟩
      have hget := (d.get?_eq_none_iff key).2 hnone
      exact .inr ⟨hnone, (d.position?_eq_none_iff key).2 hnone, hget,
        congrArg (Option.map Channel.name) hget⟩
  · exact ⟨d.isSome_lookupKey name, fun key => lookupName_of_lookupKey⟩

/-- A key that the list repeats, and a name that two keys have: the first of each is found. -/
theorem lookups_meet_repeated :
    let cs : List Channel := [⟨0x0C010200, "ANMO.SOH", none⟩, ⟨0x0C010100, "ANMO.BHZ", none⟩,
      ⟨0x0C010100, "CCM.HHZ", none⟩, ⟨0x0C010101, "anmo.bhz", none⟩]
    let d := ofList [⟨0x0C010100, "ANMO.BHZ", some "IU"⟩, ⟨0x0C010101, "anmo.bhz", some "IU"⟩]
    From cs d ∧ d.MeetAt 0x0C010101 1 ⟨0x0C010101, "anmo.bhz", some "IU"⟩ ∧
      d.get? 0x0C010200 = none ∧ d.lookupKey "Anmo.bhZ" = some 0x0C010100 ∧
      ∃ found, d.lookupName 0x0C010100 = some found ∧ SameName found "Anmo.bhZ" := by
  intro cs d
  have hsubset : ((ofList cs).filterByType 1).subset "IU.*.BH?" "XX" = .ok d := rfl
  have hfrom : From cs d := .subset (.type .list 1) hsubset
  obtain ⟨-, -, hkeys, hnames⟩ := lookups_meet hfrom
  have hname : d.lookupKey "Anmo.bhZ" = some 0x0C010100 := by decide
  refine ⟨hfrom, ?_, by decide, hname, (hnames "Anmo.bhZ").2 _ hname⟩
  rcases hkeys 0x0C010101 with ⟨i, c, hmeet⟩ | ⟨-, hnone, -⟩
  · have hplace : d.position? 0x0C010101 = some 1 := by decide
    have hchannel : d.get? 0x0C010101 = some ⟨0x0C010101, "anmo.bhz", some "IU"⟩ := by decide
    obtain rfl := Option.some.inj (hmeet.2.1.symm.trans hplace)
    obtain rfl := Option.some.inj (hmeet.2.2.1.symm.trans hchannel)
    exact hmeet
  · exact absurd hnone (by decide)

end Directory

end SeisFeed
