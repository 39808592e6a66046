import SeisFeed.Proofs.Channel.Lookup
import SeisFeed.Proofs.Channel.Spelling
/-!
# Selecting channels

What a list of patterns does to a directory it does to each of its channels alone: the channel stays
or goes by its name, and if it stays, the first pattern that matches says what network it is in. The
key and the name never change, so a second selection sees what the first one saw, and whatever looks
at the keys only may be done before selecting or after.
-/

namespace SeisFeed.Directory

/-- A channel, in the network of the first pattern that matches its name. -/
structure SelectedBy (ps : List Pattern) (c c' : Channel) : Prop where
  key : c'.key = c.key
  name : c'.name = c.name
  network : ∃ before p after, ps = before ++ p :: after ∧
    (∀ q ∈ before, q.matchesName c.name = false) ∧ p.matchesName c.name = true ∧
    c'.network = some p.network

variable {d : Directory} {ps qs : List Pattern} {c c' : Channel} {key : UInt32}

theorem eq_of_channels_eq {e : Directory} (h : d.channels = e.channels) : d = e := by
  cases d
  cases e
  congr

/-! ### One channel -/

theorem selected?_eq_some_iff : selected? ps c = some c' ↔ SelectedBy ps c c' := by
  simp only [selected?, Option.map_eq_some_iff, List.find?_eq_some_iff_append, Bool.not_eq_true']
  constructor
  · rintro ⟨p, ⟨hp, before, after, hsplit, hbefore⟩, rfl⟩
    exact ⟨rfl, rfl, before, p, after, hsplit, hbefore, hp, rfl⟩
  · rintro ⟨hkey, hname, before, p, after, hsplit, hbefore, hp, hnetwork⟩
    refine ⟨p, ⟨hp, before, after, hsplit, hbefore⟩, ?_⟩
    cases c'
    subst hkey hname hnetwork
    rfl

theorem isSome_selected? (ps : List Pattern) (c : Channel) :
    (selected? ps c).isSome = ps.any fun p => p.matchesName c.name := by
  rw [selected?, Option.isSome_map, Bool.eq_iff_iff, List.find?_isSome, List.any_eq_true]

theorem selected?_append : selected? (ps ++ qs) c = (selected? ps c).or (selected? qs c) := by
  rw [selected?, List.find?_append, Option.map_or]
  rfl

theorem selected?_of_selected? (h : selected? ps c = some c') : selected? ps c' = some c' := by
  obtain ⟨hkey, hname, before, p, after, hsplit, hbefore, hp, hnetwork⟩ :=
    selected?_eq_some_iff.1 h
  rw [← hname] at hbefore hp
  exact selected?_eq_some_iff.2 ⟨rfl, rfl, before, p, after, hsplit, hbefore, hp, hnetwork⟩

/-! ### All channels -/

theorem channels_selectBy (d : Directory) (ps : List Pattern) :
    (d.selectBy ps).channels = d.channels.filterMap (selected? ps) :=
  rfl

theorem channels_filterByType (d : Directory) (code : UInt8) :
    (d.filterByType code).channels = d.channels.filter fun c => c.dataType == code :=
  rfl

theorem forall₂_selectBy (ps : List Pattern) (cs : List Channel) :
    List.Forall₂ (SelectedBy ps) (cs.filter fun c => ps.any fun p => p.matchesName c.name)
      (cs.filterMap (selected? ps)) := by
  simp only [← isSome_selected?]
  induction cs with
  | nil => exact .nil
  | cons c cs ih =>
    cases h : selected? ps c with
    | none => rwa [List.filter_cons_of_neg (by simp [h]), List.filterMap_cons_none h]
    | some c' =>
      rw [List.filter_cons_of_pos (by simp [h]), List.filterMap_cons_some h]
      exact .cons (selected?_eq_some_iff.1 h) ih

theorem get?_selectBy (d : Directory) (ps : List Pattern) (key : UInt32) :
    (d.selectBy ps).get? key = (d.get? key).bind (selected? ps) := by
  ext c'
  simp only [get?_eq_some_iff, selectBy, List.mem_filterMap, Option.bind_eq_some_iff]
  constructor
  · rintro ⟨⟨c, hc, hselected⟩, rfl⟩
    exact ⟨c, ⟨hc, (selected?_eq_some_iff.1 hselected).key.symm⟩, hselected⟩
  · rintro ⟨c, ⟨hc, rfl⟩, hselected⟩
    exact ⟨⟨c, hc, hselected⟩, (selected?_eq_some_iff.1 hselected).key⟩

theorem keys_selectBy_sublist (d : Directory) (ps : List Pattern) :
    (d.selectBy ps).keys.Sublist d.keys := by
  rw [keys, channels_selectBy, map_key_filterMap_selected?]
  exact List.filter_sublist.map Channel.key

theorem keys_filterByType_sublist (d : Directory) (code : UInt8) :
    (d.filterByType code).keys.Sublist d.keys :=
  List.filter_sublist.map Channel.key

theorem mem_keys_iff : key ∈ d.keys ↔ (d.get? key).isSome := by
  simp only [Option.isSome_iff_exists, get?_eq_some_iff, keys, List.mem_map]

theorem key_mem_keys_selectBy_iff (hc : c ∈ d.channels) :
    c.key ∈ (d.selectBy ps).keys ↔ (selected? ps c).isSome := by
  rw [mem_keys_iff, get?_selectBy, (d.get?_eq_some_iff c.key c).2 ⟨hc, rfl⟩, Option.bind_some]

theorem keys_selectBy_append :
    (d.selectBy (ps ++ qs)).keys =
      d.keys.filter fun key => key ∈ (d.selectBy ps).keys ∨ key ∈ (d.selectBy qs).keys := by
  rw [keys.eq_def (selectBy _ _), channels_selectBy, map_key_filterMap_selected?, keys.eq_def d,
    List.filter_map]
  congr 1
  apply List.filter_congr
  intro c hc
  simp only [selected?_append, Option.isSome_or, Function.comp_apply,
    key_mem_keys_selectBy_iff hc, Bool.decide_or, Bool.decide_eq_true]

/-- Of a channel that both lists select, the first decides. -/
theorem get?_selectBy_append :
    (d.selectBy (ps ++ qs)).get? key =
      if key ∈ (d.selectBy ps).keys then (d.selectBy ps).get? key
      else (d.selectBy qs).get? key := by
  simp only [mem_keys_iff, get?_selectBy]
  cases d.get? key with
  | none => rfl
  | some c =>
    rw [Option.bind_some, Option.bind_some, Option.bind_some, selected?_append]
    cases selected? ps c <;> rfl

theorem selectBy_selectBy (d : Directory) (ps : List Pattern) :
    (d.selectBy ps).selectBy ps = d.selectBy ps := by
  apply eq_of_channels_eq
  rw [channels_selectBy, channels_selectBy, List.filterMap_filterMap]
  apply List.filterMap_congr
  intro c _
  cases h : selected? ps c with
  | none => rfl
  | some c' => exact selected?_of_selected? h

theorem filterByType_selectBy (d : Directory) (ps : List Pattern) (code : UInt8) :
    (d.selectBy ps).filterByType code = (d.filterByType code).selectBy ps := by
  apply eq_of_channels_eq
  rw [channels_filterByType, channels_selectBy, channels_selectBy, channels_filterByType,
    List.filter_filterMap, List.filterMap_filter]
  apply List.filterMap_congr
  intro c _
  cases h : selected? ps c with
  | none => simp
  | some c' =>
    have htype : c'.dataType = c.dataType :=
      congrArg keyDataType (selected?_eq_some_iff.1 h).key
    rw [Option.filter_some, htype]

/-! ### The laws of selecting -/

theorem subset_eq_ok_iff {patterns network : String} {s : Directory} :
    d.subset patterns network = .ok s ↔
      ∃ ps, Pattern.parseList patterns network = .ok ps ∧ d.selectBy ps = s := by
  rw [subset]
  cases Pattern.parseList patterns network <;> simp [Except.map]

theorem exists_subset_eq_ok_iff {patterns network : String} :
    (∃ s, d.subset patterns network = .ok s) ↔
      ∃ ps, Pattern.parseList patterns network = .ok ps := by
  simp [subset_eq_ok_iff]

/-- A list of patterns selects the channels that one of them matches, in order, each in the network
of the first that does. Two lists with a comma between them are accepted where both are, and select
what either selects, the first one first. To select again changes nothing, and it does not matter
whether selecting or the choice of a type comes first. -/
theorem subset_laws (d : Directory) (P Q network : String) :
    (∀ ps, Pattern.parseList P network = .ok ps → ∃ s, d.subset P network = .ok s ∧
      List.Forall₂ (SelectedBy ps)
        (d.channels.filter fun c => ps.any fun p => p.matchesName c.name) s.channels) ∧
    ((∃ s, d.subset (P ++ "," ++ Q) network = .ok s) ↔
      (∃ ps, Pattern.parseList P network = .ok ps) ∧
        ∃ qs, Pattern.parseList Q network = .ok qs) ∧
    (∀ s sp sq, d.subset (P ++ "," ++ Q) network = .ok s → d.subset P network = .ok sp →
      d.subset Q network = .ok sq →
        s.keys = d.keys.filter (fun key => key ∈ sp.keys ∨ key ∈ sq.keys) ∧
        ∀ key, s.get? key = if key ∈ sp.keys then sp.get? key else sq.get? key) ∧
    ((d.subset P network).bind fun s => s.subset P network) = d.subset P network ∧
    ∀ code, (d.subset P network).map (fun s => s.filterByType code) =
      (d.filterByType code).subset P network := by
  refine ⟨fun ps h => ?_, ?_, ?_, ?_, fun code => ?_⟩
  · exact ⟨_, subset_eq_ok_iff.2 ⟨ps, h, rfl⟩, forall₂_selectBy ps d.channels⟩
  · rw [exists_subset_eq_ok_iff, Pattern.exists_parseList_append_iff]
  · intro s sp sq hs hsp hsq
    obtain ⟨ps, hP, rfl⟩ := subset_eq_ok_iff.1 hsp
    obtain ⟨qs, hQ, rfl⟩ := subset_eq_ok_iff.1 hsq
    obtain ⟨pqs, hPQ, rfl⟩ := subset_eq_ok_iff.1 hs
    rw [Pattern.parseList_append, hP, hQ] at hPQ
    obtain rfl := Except.ok.inj hPQ
    exact ⟨keys_selectBy_append, fun key => get?_selectBy_append⟩
  · cases h : d.subset P network with
    | error fault => rfl
    | ok s =>
      obtain ⟨ps, hP, rfl⟩ := subset_eq_ok_iff.1 h
      exact subset_eq_ok_iff.2 ⟨ps, hP, selectBy_selectBy d ps⟩
  · rw [subset, subset]
    cases Pattern.parseList P network with
    | error fault => rfl
    | ok ps => exact congrArg Except.ok (filterByType_selectBy d ps code)

theorem subset_laws_overlapping :
    let d := ofList [⟨0x0C010100, "ANMO.BHZ", none⟩, ⟨0x0C010101, "ANMO.BHN", some "XX"⟩,
      ⟨0x0C020100, "CCM.HHZ", none⟩]
    ∃ s sp sq, d.subset ("GE.ANMO.BHZ" ++ "," ++ "IU.*.BH?") "XX" = .ok s ∧
      d.subset "GE.ANMO.BHZ" "XX" = .ok sp ∧ d.subset "IU.*.BH?" "XX" = .ok sq ∧
      s.keys = [0x0C010100, 0x0C010101] ∧
      s.get? 0x0C010100 = some ⟨0x0C010100, "ANMO.BHZ", some "GE"⟩ ∧
      s.get? 0x0C010101 = some ⟨0x0C010101, "ANMO.BHN", some "IU"⟩ := by
  intro d
  obtain ⟨hfirst, haccepted, hboth, -, -⟩ := subset_laws d "GE.ANMO.BHZ" "IU.*.BH?" "XX"
  obtain ⟨s, hs⟩ := haccepted.2 ⟨⟨_, rfl⟩, _, rfl⟩
  obtain ⟨sp, hsp, -⟩ := hfirst _ rfl
  obtain ⟨hkeys, hget⟩ := hboth s sp _ hs hsp rfl
  obtain rfl := Except.ok.inj hsp
  refine ⟨s, _, _, hs, rfl, rfl, ?_, ?_, ?_⟩
  · rw [hkeys]
    decide
  · rw [hget]
    decide
  · rw [hget]
    decide

end SeisFeed.Directory
