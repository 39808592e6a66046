import SeisFeed.Proofs.Channel.Selecting
import SeisFeed.Proofs.Wire.Reading
import SeisFeed.Session.Selection
/-!
# What is wanted of a channel list

A server lists its channels in any order, and may repeat a key. Of these a client wants the first
with each key, if it carries a time series and one of the request's patterns matches its name. A
pattern never matches a name without a dot, because none has an empty channel; so what is wanted can
be called by its name again after the name was split.
-/

namespace SeisFeed

open Wire (Bytes Read)

/-- The channels that a list announces, repeated keys included. -/
def Directory.listed? (body : Bytes) : Option (List Channel) :=
  (do readEntries (← Read.word32).toNat : Read (List Channel)).run body

theorem Directory.parse_eq_ok_iff {body : Bytes} {d : Directory} :
    parse body = .ok d ↔ ∃ cs, listed? body = some cs ∧ d = ofList cs := by
  rw [parse, listed?, Read.run, Read.bind_apply]
  rcases Read.word32 (Wire.Cursor.start body) with ⟨_ | count, c⟩
  · simp
  · rcases hread : readEntries count.toNat c with ⟨_ | cs, rest⟩
    · simp [hread]
    · simp [hread, eq_comm]

/-! ### The first of each key -/

theorem firstPerKey_eq_eraseDupsBy (seen : List UInt32) (cs : List Channel) :
    firstPerKey seen cs =
      (cs.filter fun c => c.key ∉ seen).eraseDupsBy fun c d => c.key == d.key := by
  induction cs generalizing seen with
  | nil => rfl
  | cons c cs ih =>
    rw [firstPerKey]
    split
    · next hseen => rw [ih, List.filter_cons_of_neg (by simpa using hseen)]
    · next hnew =>
      rw [ih, List.filter_cons_of_pos (by simpa using hnew), List.eraseDupsBy_cons,
        List.filter_filter]
      congr 2
      apply List.filter_congr
      intro d _
      simp

theorem firstPerKey_sublist (seen : List UInt32) (cs : List Channel) :
    (firstPerKey seen cs).Sublist cs := by
  induction cs generalizing seen with
  | nil => exact .slnil
  | cons c cs ih =>
    rw [firstPerKey]
    split
    · exact (ih _).cons c
    · exact (ih _).cons_cons c

theorem mem_firstPerKey_iff {seen : List UInt32} {cs : List Channel} {c : Channel} :
    c ∈ firstPerKey seen cs ↔ c.key ∉ seen ∧ cs.find? (fun d => d.key == c.key) = some c := by
  induction cs generalizing seen with
  | nil => simp [firstPerKey]
  | cons d ds ih =>
    rw [firstPerKey]
    by_cases hkey : d.key = c.key
    · rw [List.find?_cons_of_pos (by simpa using hkey), Option.some_inj]
      split
      · next hseen =>
        have hold : c.key ∈ seen := hkey ▸ hseen
        simp [ih, hold]
      · next hnew => simp [ih, hkey, hkey ▸ hnew, eq_comm]
    · have hne : c ≠ d := fun h => hkey (congrArg Channel.key h.symm)
      rw [List.find?_cons_of_neg (by simpa using hkey)]
      split
      · exact ih
      · simp [ih, hne, Ne.symm hkey]

/-! ### Patterns -/

theorem Text.Utf8.encode_ne_nil {s : String} (h : s ≠ "") : encode s ≠ [] := by
  obtain ⟨c, rest, hs⟩ := List.exists_cons_of_ne_nil (mt String.toList_eq_nil_iff.1 h)
  have hchar : 0 < (String.utf8EncodeChar c).length := by
    rw [String.length_utf8EncodeChar]
    exact c.utf8Size_pos
  simp [encode, hs, List.ne_nil_of_length_pos hchar]

namespace Pattern

theorem channel_ne_nil_of_parse {text network : String} {p : Pattern}
    (h : parse text network = .ok p) : p.channel ≠ [] := by
  obtain ⟨_, _, channel, hspells, rfl⟩ := parse_eq_ok_iff.1 h
  simpa [ofTexts] using Text.Utf8.encode_ne_nil hspells.channel_ne

theorem channel_ne_nil_of_parseList {text network : String} {ps : List Pattern} {p : Pattern}
    (h : parseList text network = .ok ps) (hp : p ∈ ps) : p.channel ≠ [] := by
  rw [parseList_eq (Text.divided_splitOn ',' text)] at h
  obtain ⟨item, -, hitem⟩ := exists_of_mem_mapM h hp
  exact channel_ne_nil_of_parse hitem

/-- Only a name with a dot is matched, and the parts that it is split into make it up again. -/
theorem join_of_matchesName {p : Pattern} {name : String} (hp : p.channel ≠ [])
    (h : p.matchesName name = true) :
    (splitName name).1 ++ "." ++ (splitName name).2 = name := by
  have hchannel : Slot.acceptAll p.channel (Text.Utf8.encode (splitName name).2) = true :=
    (Bool.and_eq_true_iff.1 h).2
  rcases ((splitName_eq_iff name _ _).1 rfl).2 with hjoined | ⟨-, hnone⟩
  · exact hjoined.symm
  · have hempty : (splitName name).2 = "" := hnone
    rw [hempty] at hchannel
    obtain ⟨slot, slots, hslots⟩ := List.exists_cons_of_ne_nil hp
    rw [hslots] at hchannel
    cases hchannel

end Pattern

/-! ### What patterns select -/

/-- What a client wants of the channels that a server lists, in the order in which they are listed:
of each key the first entry, if it carries a time series and a pattern matches its name. -/
def wanted (ps : List Pattern) (cs : List Channel) : List Channel :=
  (cs.eraseDupsBy fun c d => c.key == d.key).filter fun c =>
    c.dataType == DataType.timeseries.code && ps.any fun p => p.matchesName c.name

theorem wanted_eq (ps : List Pattern) (cs : List Channel) :
    wanted ps cs = (firstPerKey [] cs).filter fun c =>
      c.dataType == DataType.timeseries.code && ps.any fun p => p.matchesName c.name := by
  rw [wanted, firstPerKey_eq_eraseDupsBy]
  simp

theorem mem_wanted_iff {ps : List Pattern} {cs : List Channel} {c : Channel} :
    c ∈ wanted ps cs ↔ cs.find? (fun d => d.key == c.key) = some c ∧
      c.dataType = DataType.timeseries.code ∧ ∃ p ∈ ps, p.matchesName c.name = true := by
  simp [wanted_eq, mem_firstPerKey_iff]

theorem wanted_sublist (ps : List Pattern) (cs : List Channel) :
    (wanted ps cs).Sublist cs := by
  rw [wanted_eq]
  exact List.filter_sublist.trans (firstPerKey_sublist [] cs)

theorem nodup_keys_wanted (ps : List Pattern) (cs : List Channel) :
    ((wanted ps cs).map Channel.key).Nodup := by
  rw [wanted_eq]
  exact (nodup_firstPerKey [] cs).sublist (List.filter_sublist.map _)

namespace Session

variable {ps : List Pattern} {cs : List Channel} {patterns network : String}

/-- The channels of a list that a client subscribes to. -/
def selection (ps : List Pattern) (cs : List Channel) : Directory :=
  (timeSeries (.ofList cs)).selectBy ps

theorem keys_selection (ps : List Pattern) (cs : List Channel) :
    (selection ps cs).keys = (wanted ps cs).map Channel.key := by
  rw [Directory.keys, selection, Directory.selectBy, Directory.map_key_filterMap_selected?,
    wanted_eq, timeSeries, Directory.filterByType, Directory.ofList, List.filter_filter]
  simp only [Directory.isSome_selected?, Bool.and_comm]

theorem selection_eq_nil_iff : (selection ps cs).channels = [] ↔ wanted ps cs = [] := by
  have hkeys := congrArg List.length (keys_selection ps cs)
  rw [Directory.keys, List.length_map, List.length_map] at hkeys
  rw [← List.length_eq_zero_iff, ← List.length_eq_zero_iff, hkeys]

theorem mem_selection_iff {c : Channel} :
    c ∈ (selection ps cs).channels ↔
      ∃ entry ∈ wanted ps cs, Directory.selected? ps entry = some c := by
  have hsome {entry : Channel} (h : Directory.selected? ps entry = some c) :
      (ps.any fun p => p.matchesName entry.name) = true := by
    rw [← Directory.isSome_selected?, h]
    rfl
  change c ∈ ((firstPerKey [] cs).filter _).filterMap _ ↔ _
  simp only [List.mem_filterMap, wanted_eq, List.mem_filter, Bool.and_eq_true]
  constructor
  · rintro ⟨entry, ⟨hfirst, htype⟩, hselected⟩
    exact ⟨entry, ⟨hfirst, htype, hsome hselected⟩, hselected⟩
  · rintro ⟨entry, ⟨hfirst, htype, -⟩, hselected⟩
    exact ⟨entry, ⟨hfirst, htype⟩, hselected⟩

/-- The channel that a client subscribes to under a key is the first that the server lists with it,
in the network of the first pattern that matches its name. -/
theorem get?_selection {key : UInt32} {c : Channel} (h : (selection ps cs).get? key = some c) :
    key ∈ (wanted ps cs).map Channel.key ∧ keyDataType key = DataType.timeseries.code ∧
      ∃ entry p, cs.find? (fun d => d.key == key) = some entry ∧
        ps.find? (fun p => p.matchesName entry.name) = some p ∧
        c = { entry with network := some p.network } := by
  obtain ⟨hc, rfl⟩ := ((selection ps cs).get?_eq_some_iff key c).1 h
  obtain ⟨entry, hentry, hselected⟩ := mem_selection_iff.1 hc
  obtain ⟨hfirst, htype, -⟩ := mem_wanted_iff.1 hentry
  obtain ⟨p, hp, rfl⟩ := Option.map_eq_some_iff.1 hselected
  exact ⟨List.mem_map.2 ⟨entry, hentry, rfl⟩, htype, entry, p, hfirst, hp, rfl⟩

theorem selectChannels_eq_ok_iff {d selected : Directory} :
    selectChannels d patterns network = .ok selected ↔
      ∃ ps, Pattern.parseList patterns network = .ok ps ∧
        (timeSeries d).selectBy ps = selected ∧ selected.channels ≠ [] := by
  rw [selectChannels]
  constructor
  · intro h
    split at h
    · cases h
    · next found hsubset =>
      obtain ⟨ps, hparse, hselect⟩ := Directory.subset_eq_ok_iff.1 hsubset
      split at h
      · cases h
      · next hsome =>
        obtain rfl := Except.ok.inj h
        exact ⟨ps, hparse, hselect, hsome⟩
  · rintro ⟨ps, hparse, hselect, hsome⟩
    rw [Directory.subset_eq_ok_iff.2 ⟨ps, hparse, hselect⟩]
    exact if_neg hsome

theorem selectChannels_eq (hparse : Pattern.parseList patterns network = .ok ps) :
    selectChannels (.ofList cs) patterns network =
      if wanted ps cs = [] then .error (.config s!"no channel matches {Text.quoted patterns}")
      else .ok (selection ps cs) := by
  have hsubset : (timeSeries (.ofList cs)).subset patterns network = .ok (selection ps cs) :=
    Directory.subset_eq_ok_iff.2 ⟨ps, hparse, rfl⟩
  rw [selectChannels, hsubset]
  simp only [selection_eq_nil_iff]

end Session

end SeisFeed
