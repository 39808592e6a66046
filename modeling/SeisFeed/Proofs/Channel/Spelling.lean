import Mathlib.Data.List.Forall2
import SeisFeed.Channel.Pattern
import SeisFeed.Proofs.Text.Parts
/-!
# How patterns are spelled

A text spells a pattern, if between its margins stand two or three parts, none of them empty, with
dots between them; of two parts the network is the default, which then must not be empty either. A
list is read item by item, and fails with the first item that spells no pattern. A blank list is
checked for by itself, but it is also its own only item, and spells nothing.
-/

namespace SeisFeed

/-! ### Outcomes in a row -/

section Outcomes

variable {α β ε : Type} {f : α → Except ε β}

theorem mapM_eq_ok_iff {as : List α} {bs : List β} :
    as.mapM f = .ok bs ↔ List.Forall₂ (fun a b => f a = .ok b) as bs := by
  induction as generalizing bs with
  | nil =>
    rw [List.forall₂_nil_left_iff]
    exact ⟨fun h => (Except.ok.inj h).symm, fun h => h ▸ rfl⟩
  | cons a as ih =>
    rw [List.mapM_cons, List.forall₂_cons_left_iff]
    constructor
    · intro h
      cases hfirst : f a with
      | error e =>
        rw [hfirst] at h
        cases h
      | ok b =>
        cases hothers : as.mapM f with
        | error e =>
          rw [hfirst, hothers] at h
          cases h
        | ok bs' =>
          rw [hfirst, hothers] at h
          exact ⟨b, bs', rfl, ih.1 hothers, (Except.ok.inj h).symm⟩
    · rintro ⟨b, bs', hfirst, hothers, rfl⟩
      rw [hfirst, ih.2 hothers]
      rfl

theorem exists_of_mem_mapM {as : List α} {bs : List β} (h : as.mapM f = .ok bs) {b : β}
    (hb : b ∈ bs) : ∃ a ∈ as, f a = .ok b := by
  rw [mapM_eq_ok_iff] at h
  induction h with
  | nil => cases hb
  | @cons a _ as _ hfirst _ ih =>
    rcases List.mem_cons.1 hb with rfl | hb
    · exact ⟨a, List.mem_cons_self, hfirst⟩
    · obtain ⟨a', ha', hfound⟩ := ih hb
      exact ⟨a', List.mem_cons_of_mem a ha', hfound⟩

theorem exists_mapM_eq_ok_iff {as : List α} :
    (∃ bs, as.mapM f = .ok bs) ↔ ∀ a ∈ as, ∃ b, f a = .ok b := by
  induction as with
  | nil => exact ⟨fun _ => nofun, fun _ => ⟨[], rfl⟩⟩
  | cons a as ih =>
    rw [List.forall_mem_cons, ← ih]
    simp only [mapM_eq_ok_iff, List.forall₂_cons_left_iff]
    constructor
    · rintro ⟨_, b, bs, hfirst, hothers, rfl⟩
      exact ⟨⟨b, hfirst⟩, bs, hothers⟩
    · rintro ⟨⟨b, hfirst⟩, bs, hothers⟩
      exact ⟨_, b, bs, hfirst, hothers, rfl⟩

theorem mapM_eq_error_iff {as : List α} {e : ε} :
    as.mapM f = .error e ↔ ∃ before a after, as = before ++ a :: after ∧
      (∀ a' ∈ before, ∃ b, f a' = .ok b) ∧ f a = .error e := by
  induction as with
  | nil => exact ⟨nofun, fun ⟨before, a, after, h, _⟩ => by simp at h⟩
  | cons a as ih =>
    rw [List.mapM_cons]
    constructor
    · intro h
      cases hfirst : f a with
      | error e' =>
        rw [hfirst] at h
        obtain rfl := Except.error.inj h
        exact ⟨[], a, as, rfl, nofun, hfirst⟩
      | ok b =>
        cases hothers : as.mapM f with
        | ok bs =>
          rw [hfirst, hothers] at h
          cases h
        | error e' =>
          rw [hfirst, hothers] at h
          obtain rfl := Except.error.inj h
          obtain ⟨before, a', after, rfl, hbefore, hfails⟩ := ih.1 hothers
          refine ⟨a :: before, a', after, rfl, ?_, hfails⟩
          intro a'' ha''
          rcases List.mem_cons.1 ha'' with rfl | ha''
          · exact ⟨b, hfirst⟩
          · exact hbefore a'' ha''
    · rintro ⟨before, a', after, hsplit, hbefore, hfails⟩
      cases before with
      | nil =>
        obtain ⟨rfl, rfl⟩ := List.cons.inj hsplit
        rw [hfails]
        rfl
      | cons first before =>
        obtain ⟨rfl, rfl⟩ := List.cons.inj hsplit
        obtain ⟨b, hfirst⟩ := hbefore a List.mem_cons_self
        have hothers := ih.2 ⟨before, a', after, rfl,
          fun a'' ha'' => hbefore a'' (List.mem_cons_of_mem a ha''), hfails⟩
        rw [hfirst, hothers]
        rfl

end Outcomes

namespace Pattern

/-! ### Single patterns -/

/-- A text spells the pattern of a network, a station and a channel: these are the parts between its
margins, or the network is the default and the others are. None of the three is empty. -/
structure Spells (defaultNetwork text network station channel : String) : Prop where
  parts : ∃ core, Text.HasCore text core ∧
    (Text.Divided '.' core [station, channel] ∧ network = defaultNetwork ∨
      Text.Divided '.' core [network, station, channel])
  network_ne : network ≠ ""
  station_ne : station ≠ ""
  channel_ne : channel ≠ ""

theorem Spells.unique {defaultNetwork text network station channel network' station'
    channel' : String} (h : Spells defaultNetwork text network station channel)
    (h' : Spells defaultNetwork text network' station' channel') :
    network = network' ∧ station = station' ∧ channel = channel' := by
  obtain ⟨core, hcore, hparts⟩ := h.parts
  obtain ⟨core', hcore', hparts'⟩ := h'.parts
  obtain rfl : core = core' := hcore.trim_eq.symm.trans hcore'.trim_eq
  rcases hparts with ⟨hparts, rfl⟩ | hparts <;> rcases hparts' with ⟨hparts', rfl⟩ | hparts' <;>
    simpa using hparts.unique hparts'

/-- The pattern that is read from the three texts. -/
def ofTexts (network station channel : String) : Pattern where
  network := network
  station := if station = "*" then none else some station
  channel := (Text.Utf8.encode channel).map Slot.ofByte

variable {defaultNetwork text : String} {p : Pattern}

theorem ofParts?_eq (network station channel : String) :
    ofParts? network.toList station.toList channel.toList =
      if network = "" ∨ station = "" ∨ channel = "" then none
      else some (ofTexts network station channel) := by
  have hstar : station.toList = ['*'] ↔ station = "*" := by
    rw [← String.toList_inj]
    rfl
  simp only [ofParts?, ofTexts, String.toList_eq_nil_iff, hstar, String.ofList_toList]

/-- The pattern of the parts that dots divide a text into. -/
def ofDivided? (defaultNetwork : String) : List String → Option Pattern
  | [station, channel] => ofParts? defaultNetwork.toList station.toList channel.toList
  | [network, station, channel] => ofParts? network.toList station.toList channel.toList
  | _ => none

theorem parse?_eq {core : String} {parts : List String} (hcore : Text.HasCore text core)
    (hparts : Text.Divided '.' core parts) :
    parse? text.toList defaultNetwork = ofDivided? defaultNetwork parts := by
  have hsplit : (Text.trimChars text.toList).splitOn '.' = parts.map String.toList := by
    rw [← hparts.splitOn_eq, ← hcore.trim_eq, Text.trim, String.toList_ofList]
  rw [parse?, hsplit]
  rcases parts with _ | ⟨first, _ | ⟨second, _ | ⟨third, _ | ⟨fourth, others⟩⟩⟩⟩ <;> rfl

theorem ofParts?_eq_some_iff {network station channel : String} :
    ofParts? network.toList station.toList channel.toList = some p ↔
      (network ≠ "" ∧ station ≠ "" ∧ channel ≠ "") ∧ p = ofTexts network station channel := by
  rw [ofParts?_eq, Option.ite_none_left_eq_some, not_or, not_or, Option.some_inj, eq_comm (a := p)]

theorem parse?_eq_some_iff :
    parse? text.toList defaultNetwork = some p ↔ ∃ network station channel,
      Spells defaultNetwork text network station channel ∧ p = ofTexts network station channel := by
  constructor
  · intro h
    have hcore := Text.hasCore_trim text
    have hparts := Text.divided_splitOn '.' (Text.trim text)
    generalize List.map String.ofList _ = parts at hparts
    rw [parse?_eq hcore hparts] at h
    rw [ofDivided?.eq_def] at h
    split at h
    · obtain ⟨⟨hnetwork, hstation, hchannel⟩, hp⟩ := ofParts?_eq_some_iff.1 h
      exact ⟨_, _, _, ⟨⟨_, hcore, .inl ⟨hparts, rfl⟩⟩, hnetwork, hstation, hchannel⟩, hp⟩
    · obtain ⟨⟨hnetwork, hstation, hchannel⟩, hp⟩ := ofParts?_eq_some_iff.1 h
      exact ⟨_, _, _, ⟨⟨_, hcore, .inr hparts⟩, hnetwork, hstation, hchannel⟩, hp⟩
    · cases h
  · rintro ⟨network, station, channel, ⟨⟨core, hcore, hparts⟩, hnetwork, hstation, hchannel⟩, rfl⟩
    have hall := ofParts?_eq_some_iff.2 ⟨⟨hnetwork, hstation, hchannel⟩, rfl⟩
    rcases hparts with ⟨hparts, rfl⟩ | hparts
    · exact (parse?_eq hcore hparts).trans hall
    · exact (parse?_eq hcore hparts).trans hall

theorem parse_eq_ok_iff :
    parse text defaultNetwork = .ok p ↔ ∃ network station channel,
      Spells defaultNetwork text network station channel ∧ p = ofTexts network station channel := by
  rw [parse, ← parse?_eq_some_iff]
  cases parse? text.toList defaultNetwork <;> simp

/-- A text spells a pattern under a default network. -/
def Item (defaultNetwork text : String) : Prop :=
  ∃ network station channel, Spells defaultNetwork text network station channel

theorem item_iff : Item defaultNetwork text ↔ ∃ p, parse text defaultNetwork = .ok p := by
  constructor
  · rintro ⟨network, station, channel, h⟩
    exact ⟨_, parse_eq_ok_iff.2 ⟨network, station, channel, h, rfl⟩⟩
  · rintro ⟨p, h⟩
    obtain ⟨network, station, channel, h, -⟩ := parse_eq_ok_iff.1 h
    exact ⟨network, station, channel, h⟩

theorem parse_eq_error_iff {fault : ProtocolFault} :
    parse text defaultNetwork = .error fault ↔
      ¬ Item defaultNetwork text ∧ fault = .invalidPattern text := by
  rw [item_iff, parse]
  cases parse? text.toList defaultNetwork <;> simp [eq_comm]

/-- A blank text has a single part, which is empty. -/
theorem not_item_of_blank (h : Text.Blank text) : ¬ Item defaultNetwork text := by
  rintro ⟨network, station, channel, ⟨⟨core, hcore, hparts⟩, -⟩⟩
  obtain rfl : core = "" := hcore.trim_eq.symm.trans (Text.hasCore_empty_iff.2 h).trim_eq
  have hone : Text.Divided '.' "" [""] := Text.divided_self (by simp)
  rcases hparts with ⟨hparts, -⟩ | hparts
  · exact absurd (hone.unique hparts) (by simp)
  · exact absurd (hone.unique hparts) (by simp)

/-! ### Lists -/

variable {items : List String} {ps : List Pattern}

theorem divided_of_blank (h : Text.Blank text) : Text.Divided ',' text [text] :=
  Text.divided_self fun hcomma => absurd (h ',' hcomma) (by decide)

/-- A list is read item by item. The check for a blank list comes to the same. -/
theorem parseList_eq (hitems : Text.Divided ',' text items) :
    parseList text defaultNetwork = items.mapM fun item => parse item defaultNetwork := by
  by_cases hblank : Text.Blank text
  · have htrim : Text.trimChars text.toList = [] := by
      rw [← String.toList_ofList (l := Text.trimChars _), ← Text.trim,
        (Text.hasCore_empty_iff.2 hblank).trim_eq, String.toList_empty]
    have hfault : parse text defaultNetwork = .error (.invalidPattern text) :=
      parse_eq_error_iff.2 ⟨not_item_of_blank hblank, rfl⟩
    rw [parseList, if_pos htrim, hitems.unique (divided_of_blank hblank), List.mapM_cons, hfault]
    rfl
  · have htrim : Text.trimChars text.toList ≠ [] := by
      intro htrim
      have hcore := Text.hasCore_trim text
      rw [Text.trim, htrim] at hcore
      exact hblank (Text.hasCore_empty_iff.1 hcore)
    have hread : ((fun item => parse (String.ofList item) defaultNetwork) ∘ String.toList) =
        fun item => parse item defaultNetwork := by
      funext item
      rw [Function.comp, String.ofList_toList]
    rw [parseList, if_neg htrim, hitems.splitOn_eq, List.mapM_map, hread]

theorem parseList_eq_ok_iff (hitems : Text.Divided ',' text items) :
    parseList text defaultNetwork = .ok ps ↔
      List.Forall₂ (fun item p => parse item defaultNetwork = .ok p) items ps := by
  rw [parseList_eq hitems, mapM_eq_ok_iff]

theorem exists_parseList_eq_ok_iff (hitems : Text.Divided ',' text items) :
    (∃ ps, parseList text defaultNetwork = .ok ps) ↔ ∀ item ∈ items, Item defaultNetwork item := by
  rw [parseList_eq hitems, exists_mapM_eq_ok_iff]
  simp only [item_iff]

theorem parseList_eq_error_iff (hitems : Text.Divided ',' text items) {fault : ProtocolFault} :
    parseList text defaultNetwork = .error fault ↔ ∃ before item after,
      items = before ++ item :: after ∧ (∀ item' ∈ before, Item defaultNetwork item') ∧
        ¬ Item defaultNetwork item ∧ fault = .invalidPattern item := by
  rw [parseList_eq hitems, mapM_eq_error_iff]
  simp only [parse_eq_error_iff, ← item_iff]

theorem parseList_append (P Q network : String) :
    parseList (P ++ "," ++ Q) network = do
      return (← parseList P network) ++ (← parseList Q network) := by
  have hP := Text.divided_splitOn ',' P
  have hQ := Text.divided_splitOn ',' Q
  rw [parseList_eq hP, parseList_eq hQ, ← List.mapM_append]
  exact parseList_eq (hP.append hQ)

theorem exists_parseList_append_iff {P Q network : String} :
    (∃ ps, parseList (P ++ "," ++ Q) network = .ok ps) ↔
      (∃ ps, parseList P network = .ok ps) ∧ ∃ qs, parseList Q network = .ok qs := by
  rw [parseList_append]
  cases parseList P network with
  | error fault => exact ⟨nofun, fun h => nomatch h.1⟩
  | ok ps =>
    cases parseList Q network with
    | error fault => exact ⟨nofun, fun h => nomatch h.2⟩
    | ok qs => exact ⟨fun _ => ⟨⟨ps, rfl⟩, qs, rfl⟩, fun _ => ⟨ps ++ qs, rfl⟩⟩

end Pattern

end SeisFeed
