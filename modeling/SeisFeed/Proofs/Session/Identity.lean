import SeisFeed.Proofs.Session.Conversation
/-!
# Whose records are handed out

A record is resolved once, when its packet is decoded, against the channels subscribed to. From then
on it may wait in a reorder buffer, be released or flushed, and wait again to be handed out, but it
stays what it is. So `Holds` carries any property of freshly decoded records to those that a call
answers, and `Genuine` is the property that matters: the record belongs to a channel that the client
asked for, under the name that the server gave it.
-/

namespace SeisFeed

open Waveform (PacketFault Record)

/-! ### Decoding -/

/-- A record of a channel that a client wants of those a server lists, named as the server names
it. -/
structure Genuine (ps : List Pattern) (cs : List Channel) (r : Record) : Prop where
  wanted : r.key ∈ (wanted ps cs).map Channel.key
  timeSeries : keyDataType r.key = DataType.timeseries.code
  named : ∃ entry p, cs.find? (fun c => c.key == r.key) = some entry ∧ r.name = entry.name ∧
    ps.find? (fun p => p.matchesName entry.name) = some p ∧ r.network = some p.network
  rated : r.samples ≠ [] → 0 < r.sampleRate

namespace Waveform

variable {ps : List Pattern} {cs : List Channel} {patterns network : String} {body : Wire.Bytes}
  {r : Record}

theorem rateOfCode_nonneg (code : UInt8) : 0 ≤ rateOfCode code := by
  have hall : rateTable.all (fun rate => 0 ≤ rate) = true := by decide
  rw [rateOfCode, List.getD_eq_getElem?_getD]
  cases hrate : rateTable[code.toNat]? with
  | none => decide
  | some rate =>
    exact of_decide_eq_true (List.all_eq_true.1 hall rate (List.mem_of_getElem? hrate))

/-- The names of the channels selected have a dot, so splitting one loses nothing. -/
theorem genuine_of_resolve {key : UInt32} {record : Channel → Record}
    (hparse : Pattern.parseList patterns network = .ok ps)
    (h : (resolve (Session.selection ps cs) key).map record = .ok r)
    (hkey : ∀ c, (record c).key = key) (hnetwork : ∀ c, (record c).network = c.network)
    (hstation : ∀ c, (record c).station = c.station)
    (hchannel : ∀ c, (record c).channel = c.component)
    (hrated : ∀ c, (record c).samples ≠ [] → 0 < (record c).sampleRate) : Genuine ps cs r := by
  rw [resolve] at h
  split at h
  · cases h
  · next c hget =>
    obtain rfl : record c = r := Except.ok.inj h
    obtain ⟨hwanted, htype, entry, p, hentry, hp, rfl⟩ := Session.get?_selection hget
    have hjoin := Pattern.join_of_matchesName
      (Pattern.channel_ne_nil_of_parseList hparse (List.mem_of_find?_eq_some hp))
      (by simpa using List.find?_some hp)
    rw [← hkey { entry with network := some p.network }] at hwanted htype hentry
    refine ⟨hwanted, htype, ⟨entry, p, hentry, ?_, hp, hnetwork _⟩, hrated _⟩
    rw [Record.name, hstation, hchannel]
    exact hjoin

theorem genuine_of_decodeCompressed (hparse : Pattern.parseList patterns network = .ok ps)
    (h : decodeCompressed (Session.selection ps cs) body = .ok r) : Genuine ps cs r := by
  rw [decodeCompressed] at h
  split at h
  · cases h
  · next header _ _ =>
    dsimp only at h
    split at h
    · cases h
    split at h
    · cases h
    split at h
    · cases h
    next hrate =>
    refine genuine_of_resolve hparse h (fun _ => rfl) (fun _ => rfl) (fun _ => rfl) (fun _ => rfl)
      fun _ hsamples => ?_
    have hne : rateOfCode header.rateCode ≠ 0 := fun hzero => hrate ⟨hzero, hsamples⟩
    exact Int32.lt_of_le_of_ne (rateOfCode_nonneg _) hne.symm

theorem genuine_of_decodeDecompressed (hparse : Pattern.parseList patterns network = .ok ps)
    (h : decodeDecompressed (Session.selection ps cs) body = .ok r) : Genuine ps cs r := by
  rw [decodeDecompressed] at h
  split at h
  · cases h
  · dsimp only at h
    split at h
    · cases h
    split at h
    · cases h
    next hrate =>
    refine genuine_of_resolve hparse h (fun _ => rfl) (fun _ => rfl) (fun _ => rfl) (fun _ => rfl)
      fun _ hsamples => ?_
    exact Int32.not_le.1 fun hle => hrate ⟨hle, hsamples⟩

end Waveform

/-! ### Carrying -/

namespace Session

namespace Subscription

open Delivery (Tracker)

variable {s s' : Subscription} {P : Record → Prop} {d : Directory} {a : Next} {r : Record}

/-- Everything that a subscription to some channels has laid out, or that waits in its buffers, has
a property. -/
structure Holds (P : Record → Prop) (d : Directory) (s : Subscription) : Prop where
  subscribed : s.subscribed = d
  ready : ∀ r ∈ s.ready, P r
  waiting : s.tracker.Waits P

/-- Every record that decodes in some channels has a property. -/
def Decodes (P : Record → Prop) (d : Directory) : Prop :=
  ∀ body r, Waveform.decodeCompressed d body = .ok r ∨ Waveform.decodeDecompressed d body = .ok r →
    P r

theorem Holds.deliver {rs : List Record} (h : s.Holds P d) (hrs : ∀ r ∈ rs, P r) :
    (s.deliver rs).Holds P d where
  subscribed := h.subscribed
  ready r hr := by
    rcases List.mem_append.1 hr with hr | hr
    · exact h.ready r hr
    · exact hrs r hr
  waiting := h.waiting.observeAll

theorem Holds.accept {result : Except PacketFault Record} (h : s.Holds P d)
    (hresult : ∀ r, result = .ok r → P r) : (s.accept result).Holds P d := by
  cases result with
  | ok r =>
    obtain ⟨hwaiting, hreleased⟩ := h.waiting.reorder (hresult r rfl)
    have hreordered : ({ s with tracker := (s.tracker.reorder r).2 } : Subscription).Holds P d :=
      ⟨h.subscribed, h.ready, hwaiting⟩
    exact hreordered.deliver hreleased
  | error fault =>
    rw [accept_error]
    split
    · exact h
    · exact ⟨h.subscribed, h.ready, h.waiting⟩

theorem Holds.finish (h : s.Holds P d) : s.finish.Holds P d := by
  obtain ⟨hwaiting, hreleased⟩ := h.waiting.flush
  have hflushed : ({ s with phase := .closed, tracker := s.tracker.flush.2 } : Subscription).Holds
      P d := ⟨h.subscribed, h.ready, hwaiting⟩
  exact hflushed.deliver hreleased

theorem Holds.withReady {rs : List Record} (h : s.Holds P d) (hrs : ∀ r ∈ rs, r ∈ s.ready) :
    ({ s with ready := rs } : Subscription).Holds P d :=
  ⟨h.subscribed, fun r hr => h.ready r (hrs r hr), h.waiting⟩

theorem kept_holds (hdecodes : Decodes P d) : Kept (Holds P d) where
  handed s r rs h hready := h.withReady fun x hx => hready ▸ List.mem_cons_of_mem r hx
  reading s h _ := ⟨h.subscribed, h.ready, h.waiting⟩
  prompted s link h _ _ := ⟨h.subscribed, h.ready, h.waiting⟩
  ended s reason text h := by
    rw [terminate]
    split
    · exact h
    · exact ⟨h.subscribed, h.ready, h.waiting.flush.1⟩
  turned s h _ := by
    have hmoved (link : Link) : ({ s with link := link } : Subscription).Holds P d :=
      ⟨h.subscribed, h.ready, h.waiting⟩
    have hturned := turned s
    generalize s.turn = outcome at hturned
    cases hturned with
    | handed hready => exact h.withReady fun x hx => hready ▸ List.mem_cons_of_mem _ hx
    | prompted => exact hmoved _
    | muted => exact hmoved _
    | passed => exact hmoved _
    | refused => exact hmoved _
    | lost => exact ⟨h.subscribed, h.ready, h.waiting⟩
    | ended _ hclosed =>
      subst hclosed
      exact (hmoved _).finish.withReady fun x hx => List.mem_of_mem_tail hx
    | @packed rest body result _ hresult =>
      refine (hmoved rest).accept fun r hok => hdecodes body r ?_
      rw [h.subscribed, hok] at hresult
      exact hresult.imp Eq.symm Eq.symm

theorem Holds.answered (h : s.Holds P d) (hturned : Turned s (.answer a s')) :
    ∀ r, a = .ok (some r) → P r := by
  intro r hr
  cases hturned with
  | handed hready =>
    obtain rfl := Option.some.inj (Except.ok.inj hr)
    exact h.ready _ (hready ▸ List.mem_cons_self)
  | muted => cases hr
  | refused => cases hr
  | lost => cases hr
  | @ended rest closed _ hclosed =>
    have hmoved : ({ s with link := rest } : Subscription).Holds P d :=
      ⟨h.subscribed, h.ready, h.waiting⟩
    have hclosed : closed.Holds P d := hclosed ▸ hmoved.finish
    exact hclosed.ready r (List.mem_of_mem_head? (Except.ok.inj hr))

theorem Holds.next (h : s.Holds P d) (hdecodes : Decodes P d)
    (hnext : s.next = .ok (.ok (some r), s')) : P r := by
  rcases (kept_holds hdecodes).next h hnext with
    ⟨last, hlast, -, hturn⟩ | ⟨x, rs, hready, hx, -⟩ | ⟨-, hnone⟩
  · have hturned := turned last
    rw [hturn] at hturned
    exact hlast.answered hturned r rfl
  · obtain rfl := Option.some.inj (Except.ok.inj hx)
    exact h.ready _ (hready ▸ List.mem_cons_self)
  · exact absurd rfl (hnone r)

theorem decodes_genuine {patterns network : String} {ps : List Pattern} (cs : List Channel)
    (hparse : Pattern.parseList patterns network = .ok ps) :
    Decodes (Genuine ps cs) (selection ps cs) := by
  intro body r hdecoded
  rcases hdecoded with hdecoded | hdecoded
  · exact Waveform.genuine_of_decodeCompressed hparse hdecoded
  · exact Waveform.genuine_of_decodeDecompressed hparse hdecoded

/-- **Records come under the server's names.** Whatever a server sends after its list of channels, a
record that a client is handed has the key of a time series that the client subscribed to, the name
of the first entry with this key in the list, and the network of the first pattern of the request
that matches this name; and if it has samples, it has a rate. -/
theorem record_identity {request : StreamRequest} (hvalid : request.validate = .ok ())
    {incoming : Incoming} {readTimeout : Time.Duration} {s s' s'' : Subscription} {r : Record}
    (hopen : openOn request (newTracker request) (.opened incoming readTimeout) = .ok s)
    (hlater : Later s s') (hnext : s'.next = .ok (.ok (some r), s'')) :
    ∃ ps cs keys, Pattern.parseList request.patterns request.network = .ok ps ∧
      Announces incoming cs ∧
      (Request.addTimeSeriesChannels keys request.completion.code request.outFormat
        request.buffered).encode ∈ s'.link.sent ∧
      r.key ∈ keys ∧ keyDataType r.key = DataType.timeseries.code ∧
      (∃ entry p, cs.find? (fun c => c.key == r.key) = some entry ∧ r.name = entry.name ∧
        ps.find? (fun p => p.matchesName entry.name) = some p ∧ r.network = some p.network) ∧
      (r.samples ≠ [] → 0 < r.sampleRate) := by
  obtain ⟨ps, hparse⟩ := patterns_of_validate hvalid
  have hopening := opening_openOn hparse (newTracker request) (.opened incoming readTimeout) rfl
  rw [hopen] at hopening
  cases hopening with
  | @subscribed cs rest hannounces _ hsent hwritable =>
    have hspoken : Spoken [.connect, subscription request ps cs] s' := by
      refine (kept_spoken _).later (.talking 0 (.inl rfl) hwritable ?_) hlater
      rw [List.replicate_zero, List.append_nil]
      exact hsent
    have hasked : (subscription request ps cs).encode ∈ s'.link.sent := by
      cases hspoken with
      | talking _ _ _ hsent => simp [hsent]
      | ended _ _ _ _ hsent => simp [hsent]
    have hholds : (opened request (newTracker request) (.ofList cs) (selection ps cs) rest).Holds
        (Genuine ps cs) (selection ps cs) :=
      ⟨rfl, fun _ hr => (by cases hr), Tracker.waits_rebuild_new _ _ _⟩
    have hdecodes := decodes_genuine cs hparse
    have hgenuine := ((kept_holds hdecodes).later hholds hlater).next hdecodes hnext
    exact ⟨ps, cs, _, hparse, hannounces, hasked, hgenuine.wanted, hgenuine.timeSeries,
      hgenuine.named, hgenuine.rated⟩

end Subscription

namespace Sample

def gap : Leg :=
  ⟨[packet 0 0, packet 2 32], [], true⟩

/-- The second packet does not come before the server leaves, so the third is handed out at the end
of the stream. -/
theorem record_identity_at_end :
    bufferedRequest.validate = .ok () ∧
      ∃ s s' s'' r, Subscription.openOn bufferedRequest (Subscription.newTracker bufferedRequest)
          (.opened (pfoListing.incoming gap) patientSettings.readTimeout) = .ok s ∧
        Subscription.Later s s' ∧ s'.next = .ok (.ok (some r), s'') ∧ r.sequence = some 2 ∧
        s''.phase = .closed ∧
        ∃ (cs : List Channel) (entry : Channel), Announces (pfoListing.incoming gap) cs ∧
          cs.find? (fun c => c.key == r.key) = some entry ∧ r.name = entry.name := by
  have hvalid : bufferedRequest.validate = .ok () := rfl
  have hopen := pfoListing.openOn_leg patientSettings (Subscription.newTracker bufferedRequest) gap
  let s := pfoListing.opened patientSettings (Subscription.newTracker bufferedRequest) gap
  obtain ⟨⟨r₀, s'⟩, hfirst⟩ : ∃ x, heardFrom s = some x :=
    Option.isSome_iff_exists.1 (by decide +kernel)
  have hlast : (heardFrom s).bind (fun x => (heardFrom x.2).map fun y =>
      (y.1.sequence, y.2.phase)) = some (some 2, .closed) := by decide +kernel
  rw [hfirst, Option.bind_some, Option.map_eq_some_iff] at hlast
  obtain ⟨⟨r, s''⟩, hsecond, hend⟩ := hlast
  obtain ⟨hsequence, hclosed⟩ := Prod.mk.inj hend
  have hlater : Subscription.Later s s' :=
    .single (.called .next (next_of_heardFrom hfirst))
  have hnext := next_of_heardFrom hsecond
  obtain ⟨ps, cs, keys, -, hannounces, -, -, -, ⟨entry, p, hentry, hname, -⟩, -⟩ :=
    Subscription.record_identity hvalid hopen hlater hnext
  exact ⟨hvalid, s, s', s'', r, hopen, hlater, hnext, hsequence, hclosed, cs, entry, hannounces,
    hentry, hname⟩

end Sample

end Session

end SeisFeed
