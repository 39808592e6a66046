import SeisFeed.Proofs.Session.Journey
/-!
# Streams heard over several connections

What a resuming client answers on a journey, and what it knows of the channels after each answer, is
the transcript of all messages as if one connection had brought them. Nothing is known or lost
between two legs: the tracker is carried over and has the same channels to follow, so the transcript
of the next leg takes up where that of the last one ended.
-/

namespace SeisFeed.Session

open Delivery (Tracker)
open Wire (Bytes)

variable {request : StreamRequest} {settings : ClientSettings}

/-! ### Losing a connection -/

namespace Subscription

variable {s : Subscription} {leg : Leg}

theorem fail_eq {fault : SessionFault} (h : fault ≠ .disconnected) :
    s.fail fault = .answer (.error fault)
      { s with phase := if fault.isConnectionFatal then .closed else s.phase } := by
  cases fault <;> first | rfl | exact absurd rfl h

theorem close_of_unbuffered (hready : s.ready = []) (hkeeps : s.tracker.Keeps s.subscribed none) :
    ∃ s', s.close = .answer (.ok none) s' ∧ s'.tracker = s.tracker := by
  have hfinish : s.finish = { s with phase := .closed } := by
    simp [finish, hkeeps.flush, deliver, Tracker.observeAll]
  refine ⟨{ s with phase := .closed }, ?_, rfl⟩
  rw [close, hfinish, pop, hready]

/-- What reading answers where the connection is lost. -/
def Loses (a : Next) : Prop :=
  a = .ok none ∨ ∃ fault, a = .error fault ∧ fault.isConnectionFatal = true

/-- Once nothing of a leg that breaks is pending, the next call loses the connection and knows what
the messages told. -/
theorem Hears.next_of_break {ms : List Parcel} (listing : Listing request)
    (h : s.Hears (listing.link settings leg) ms) (hrequest : s.request = request)
    (hkeeps : s.tracker.Keeps s.subscribed request.effectiveCapacity) (hpending : s.pending ms = [])
    (hbreaks : leg.Breaks request settings) :
    ∃ a s', s.next = .ok (a, s') ∧ Loses a ∧
      s'.tracker = Pass.knownAfter s.subscribed s.tracker ms ∧
      s'.tracker.waitingCount ≤ s.size := by
  obtain ⟨s₁, hnext, hready, hlink, htracker, hsize, halike⟩ := h.next_of_silent hpending
  obtain ⟨fault, hfault, hfatal, hdisconnected⟩ := hbreaks.fault
  have hwaiting : s₁.tracker.waitingCount ≤ s.size := by
    rw [size] at hsize
    omega
  have hwait : s₁.mustWait = false := by
    rcases hbreaks.awaited with hnone | hreadable
    · simp [mustWait, halike.request, hrequest, hnone]
    · have hreadable : s₁.link.incoming.readable = true := hlink ▸ hreadable
      simp [mustWait, hreadable]
  have hreceive : Link.receiveMessage s₁.link =
      (.error fault, (Link.receiveMessage s₁.link).2) := by
    rw [← hfault, hlink, ← listing.receiveMessage_link settings leg]
    rfl
  have hturn := turn_receive hready hwait hreceive
  by_cases hended : fault = .disconnected
  · subst hended
    have hkeeps₁ : s₁.tracker.Keeps s₁.subscribed none := by
      rw [htracker, halike.subscribed, ← hdisconnected rfl]
      exact Pass.keeps_knownAfter ms hkeeps
    obtain ⟨s₂, hclose, hsame⟩ :=
      close_of_unbuffered (s := { s₁ with link := (Link.receiveMessage s₁.link).2 }) hready hkeeps₁
    refine ⟨.ok none, s₂, hnext.trans (untilAnswer_answer ?_), .inl rfl, hsame.trans htracker, ?_⟩
    · rw [hturn, ← hclose]
      rfl
    · rw [hsame]
      exact hwaiting
  · let s₂ : Subscription := { s₁ with link := (Link.receiveMessage s₁.link).2, phase := .closed }
    have hfail : s₁.turn = .answer (.error fault) s₂ := by
      rw [hturn]
      dsimp only
      rw [fail_eq hended, hfatal]
      rfl
    exact ⟨.error fault, s₂, hnext.trans (untilAnswer_answer (by rw [hfail])),
      .inr ⟨fault, rfl, hfatal⟩, htracker, hwaiting⟩

end Subscription

/-! ### Riding from leg to leg -/

namespace Resuming

/-- The part of the transcript that a client on its way has still to answer: what is pending on its
connection, and what the legs behind it will bring. -/
def pending (s : Subscription) (ms : List Parcel) (j : Journey) : List (Next × Tracker) :=
  s.pending ms ++
    Pass.transcript s.subscribed (Pass.knownAfter s.subscribed s.tracker ms) j.later

/-- A client that reads the first leg of what is left of a journey with some losses in all, with
some messages of this leg still in front of it. -/
structure Rides (listing : Listing request) (settings : ClientSettings)
    (arrived : List (Except SessionFault Incoming)) (losses : Nat) (c : Resuming) (s : Subscription)
    (ms : List Parcel) (j : Journey) : Prop where
  client : c.client = some s
  asks : c.request = request ∧ s.request = request
  set : c.settings = settings
  subscribed : s.subscribed = listing.subscribed
  keeps : s.tracker.Keeps s.subscribed request.effectiveCapacity
  hears : s.Hears (listing.link settings j.leg) ms
  coming : c.network.coming = listing.behind j ++ arrived
  counted : c.reconnects + j.losses = losses

variable {listing : Listing request} {arrived : List (Except SessionFault Incoming)} {losses : Nat}
  {c : Resuming} {s : Subscription} {ms : List Parcel} {j : Journey}

theorem rides_opened (tracker : Tracker)
    (hclient : c.client = some (listing.opened settings tracker j.leg))
    (hrequest : c.request = request) (hsettings : c.settings = settings)
    (hkeeps : (tracker.rebuild listing.subscribed).Keeps listing.subscribed
      request.effectiveCapacity)
    (hunended : ∀ m ∈ j.leg.messages, m.ends = false)
    (hcoming : c.network.coming = listing.behind j ++ arrived)
    (hcounted : c.reconnects + j.losses = losses) :
    Rides listing settings arrived losses c (listing.opened settings tracker j.leg) j.leg.messages
      j :=
  ⟨hclient, ⟨hrequest, rfl⟩, hsettings, rfl, hkeeps, ⟨.inl rfl, rfl, hunended⟩, hcoming, hcounted⟩

theorem next_of_answer {a : Next} {s' : Subscription} (hclient : c.client = some s)
    (hnext : s.next = .ok (a, s'))
    (hanswer : (∃ r, a = .ok (some r)) ∨ ∃ text, a = .error (.server text)) :
    c.next false = .ok (a, { c with client := some s' }) := by
  apply untilAnswer_answer
  rcases hanswer with ⟨r, rfl⟩ | ⟨text, rfl⟩
  · simp [turn, hclient, hnext]
  · simp [turn, hclient, hnext, SessionFault.isConnectionFatal]

theorem turn_of_loss {a : Next} {s' : Subscription} (hclient : c.client = some s)
    (hnext : s.next = .ok (a, s')) (hloses : Subscription.Loses a) :
    c.turn false = ({ c with client := some s' } : Resuming).resume false := by
  rcases hloses with rfl | ⟨fault, rfl, hfatal⟩
  · simp [turn, hclient, hnext]
  · simp [turn, hclient, hnext, hfatal]

theorem size_network {n n' : Network} {failures : List (Except SessionFault Incoming)}
    {incoming : Incoming} (hcoming : n.coming = failures ++ .ok incoming :: n'.coming) :
    n'.size + incoming.size < n.size := by
  rw [Network.size, Network.size, hcoming]
  clear hcoming
  induction failures with
  | nil =>
    simp only [List.nil_append, List.foldr_cons, Network.sizeOfAttempt]
    omega
  | cons leading failures ih =>
    simp only [List.cons_append, List.foldr_cons]
    omega

theorem answer_of_pending {x : Next × Tracker} (h : x ∈ s.pending ms) :
    (∃ r, x.1 = .ok (some r)) ∨ ∃ text, x.1 = .error (.server text) := by
  rcases List.mem_append.1 h with h | h
  · obtain ⟨a, ha, rfl⟩ := List.mem_map.1 h
    obtain ⟨r, -, rfl⟩ := List.mem_map.1 ha
    exact .inl ⟨r, rfl⟩
  · exact Pass.answer_of_transcript _ _ _ h

theorem keeps_of_pending {capacity : Option Nat} (hkeeps : s.tracker.Keeps s.subscribed capacity)
    {x : Next × Tracker} (h : x ∈ s.pending ms) : x.2.Keeps s.subscribed capacity := by
  rcases List.mem_append.1 h with h | h
  · obtain ⟨a, -, rfl⟩ := List.mem_map.1 h
    exact hkeeps
  · exact Pass.keeps_of_transcript ms hkeeps h

theorem Rides.next_of_pending (h : Rides listing settings arrived losses c s ms j) {a : Next}
    {t : Tracker} {rest : List (Next × Tracker)} (hsome : s.pending ms ≠ [])
    (hpending : pending s ms j = (a, t) :: rest) :
    ∃ c' s' ms', c.next false = .ok (a, c') ∧ Rides listing settings arrived losses c' s' ms' j ∧
      s'.tracker = t ∧ pending s' ms' j = rest := by
  obtain ⟨⟨a', t'⟩, later, hfirst⟩ := List.exists_cons_of_ne_nil hsome
  rw [pending, hfirst, List.cons_append] at hpending
  obtain ⟨hhead, rfl⟩ := List.cons.inj hpending
  obtain ⟨rfl, rfl⟩ := Prod.mk.inj hhead
  obtain ⟨s', ms', hnext, htracker, hhears, hrest, hafter, halike⟩ := h.hears.next_of_pending hfirst
  have hmem : (a', t') ∈ s.pending ms := by
    rw [hfirst]
    exact List.mem_cons_self
  have hkeeps : s'.tracker.Keeps s'.subscribed request.effectiveCapacity := by
    rw [htracker, halike.subscribed]
    exact keeps_of_pending h.keeps hmem
  refine ⟨{ c with client := some s' }, s', ms',
    next_of_answer h.client hnext (answer_of_pending hmem), ?_, htracker, ?_⟩
  · exact ⟨rfl, ⟨h.asks.1, halike.request.trans h.asks.2⟩, h.set,
      halike.subscribed.trans h.subscribed, hkeeps, hhears, h.coming, h.counted⟩
  · rw [pending, hrest, hafter, halike.subscribed]

/-- Where nothing is pending on a leg that is lost, the client is as far as on the next leg, before
anything was read there; or there are more losses than it can count. -/
theorem Rides.next_of_loss {leg : Leg} {failures : List (Except SessionFault Incoming)}
    {next : Journey} (h : Rides listing settings arrived losses c s ms (.lost leg failures next))
    (hbreaks : leg.Breaks request settings) (hmends : Mends request settings failures)
    (hunended : ∀ m ∈ next.leg.messages, m.ends = false) (hnone : s.pending ms = []) :
    (∃ c' s', c.next false = c'.next false ∧
      Rides listing settings arrived losses c' s' next.leg.messages next ∧
      pending s' next.leg.messages next = pending s ms (.lost leg failures next)) ∨
      UInt32.size ≤ losses ∧ c.next false = .error .undefined := by
  obtain ⟨lost, s₁, hcall, hloses, hknown, hwaiting⟩ :=
    h.hears.next_of_break listing h.asks.2 h.keeps hnone hbreaks
  have hcoming : c.network.coming =
      failures ++ .ok (listing.incoming next.leg) :: (listing.behind next ++ arrived) := by
    rw [h.coming, Listing.behind, List.append_assoc, List.cons_append]
  have hcounted : c.reconnects + (next.losses + 1) = losses := h.counted
  rcases resume_leg listing (c := { c with client := some s₁ }) rfl h.asks.1 h.set hcoming hmends
    with ⟨c', hresume, hrequest, hsettings, hclient, hcoming', hreconnects⟩ | ⟨hover, hresume⟩
  case inr =>
    have hmany : UInt32.size ≤ c.reconnects + 1 := hover
    exact .inr ⟨by omega,
      untilAnswer_error ((turn_of_loss h.client hcall hloses).trans hresume)⟩
  -- the tracker is carried over and has the same channels to follow, so nothing of it changes
  have hkeeps : s₁.tracker.Keeps listing.subscribed request.effectiveCapacity := by
    rw [hknown, ← h.subscribed]
    exact Pass.keeps_knownAfter ms h.keeps
  have hrebuild : s₁.tracker.rebuild listing.subscribed = s₁.tracker := hkeeps.rebuild
  have hrides : Rides listing settings arrived losses c'
      (listing.opened settings s₁.tracker next.leg) next.leg.messages next := by
    refine rides_opened s₁.tracker hclient hrequest hsettings ?_ hunended hcoming' ?_
    · rw [hrebuild]
      exact hkeeps
    · rw [hreconnects, ← hcounted, Nat.add_assoc, Nat.add_comm 1]
  have hless : c'.size < c.size := by
    have hnetwork : c'.network.size + (listing.incoming next.leg).size < c.network.size :=
      size_network (hcoming' ▸ hcoming)
    have hnew := listing.size_opened_le settings next.leg hrebuild
    simp only [size, hclient, h.client, Option.map_some, Option.getD_some]
    omega
  refine .inl ⟨c', _, untilAnswer_again ((turn_of_loss h.client hcall hloses).trans hresume) hless,
    hrides, ?_⟩
  have htold : (listing.opened settings s₁.tracker next.leg).pending next.leg.messages =
      Pass.transcript listing.subscribed (s₁.tracker.rebuild listing.subscribed)
        next.leg.messages :=
    Subscription.pending_of_none rfl
  rw [pending, htold]
  show _ ++ Pass.transcript listing.subscribed
    (Pass.knownAfter listing.subscribed (s₁.tracker.rebuild listing.subscribed) next.leg.messages)
    next.later = _
  rw [hrebuild, ← Pass.transcript_append, hknown, ← h.subscribed, pending, hnone]
  rfl

theorem Rides.next_eq (hmended : j.Mended request settings)
    (h : Rides listing settings arrived losses c s ms j) {a : Next} {t : Tracker}
    {rest : List (Next × Tracker)} (hpending : pending s ms j = (a, t) :: rest) :
    (∃ c' s' ms' j', c.next false = .ok (a, c') ∧ j'.Mended request settings ∧
      Rides listing settings arrived losses c' s' ms' j' ∧ s'.tracker = t ∧
      pending s' ms' j' = rest) ∨
      UInt32.size ≤ losses ∧ c.next false = .error .undefined := by
  -- on what is left of the journey: with nothing pending, being on this leg is being on the next
  induction hmended generalizing c s ms with
  | @last leg hunended =>
    have hsome : s.pending ms ≠ [] := by
      intro hnone
      rw [pending, hnone] at hpending
      cases hpending
    obtain ⟨c', s', ms', hnext, hrides, hrest⟩ := h.next_of_pending hsome hpending
    exact .inl ⟨c', s', ms', _, hnext, .last hunended, hrides, hrest⟩
  | @lost leg failures next hunended hbreaks hmends hnext ih =>
    by_cases hnone : s.pending ms = []
    · have hahead : ∀ m ∈ next.leg.messages, m.ends = false := fun m hm =>
        hnext.unended m (List.mem_append_left _ hm)
      rcases h.next_of_loss hbreaks hmends hahead hnone with
        ⟨c', s', hagain, hrides, hsame⟩ | hhalts
      · rw [hagain]
        exact ih hrides (hsame.trans hpending)
      · exact .inr hhalts
    · obtain ⟨c', s', ms', hcall, hrides, hrest⟩ := h.next_of_pending hnone hpending
      exact .inl ⟨c', s', ms', _, hcall, .lost hunended hbreaks hmends hnext, hrides, hrest⟩

def known (c : Resuming) : Option Tracker :=
  c.client.map Subscription.tracker

theorem Rides.asked_eq (hmended : j.Mended request settings)
    (h : Rides listing settings arrived losses c s ms j) {count : Nat}
    (hcount : count ≤ (pending s ms j).length) :
    (∃ c', asked (next false) known count c =
      .ok (((pending s ms j).take count).map fun x => (x.1, some x.2), c')) ∨
      UInt32.size ≤ losses ∧ asked (next false) known count c = .error .undefined := by
  let Pending (c : Resuming) (later : List (Next × Option Tracker)) : Prop :=
    ∃ s ms j, j.Mended request settings ∧ Rides listing settings arrived losses c s ms j ∧
      (pending s ms j).map (fun x => (x.1, some x.2)) = later
  have hstep : ∀ c a t later, Pending c ((a, t) :: later) →
      (∃ c', c.next false = .ok (a, c') ∧ c'.known = t ∧ Pending c' later) ∨
        UInt32.size ≤ losses ∧ c.next false = .error .undefined := by
    rintro c a t later ⟨s, ms, j, hmended, hrides, hpending⟩
    obtain ⟨⟨a', t'⟩, rest, hfirst, hhead, rfl⟩ := List.map_eq_cons_iff.1 hpending
    obtain ⟨rfl, rfl⟩ := Prod.mk.inj hhead
    refine (hrides.next_eq hmended hfirst).imp_left ?_
    rintro ⟨c', s', ms', j', hnext, hmended', hrides', htracker, hrest⟩
    refine ⟨c', hnext, ?_, s', ms', j', hmended', hrides', by rw [hrest]⟩
    rw [known, hrides'.client, ← htracker]
    rfl
  have hstart : Pending c ((pending s ms j).map fun x => (x.1, some x.2)) :=
    ⟨s, ms, j, hmended, h, rfl⟩
  have hcount : count ≤ ((pending s ms j).map fun x => (x.1, some x.2)).length := by
    rwa [List.length_map]
  refine (asked_or_halts hstep hstart hcount).imp_left ?_
  rintro ⟨c', hasked, -⟩
  exact ⟨c', by rw [hasked, List.map_take]⟩

end Resuming

/-- **A stream in legs is heard as one stream.** A resuming client that loses its connections on the
way, each behind whole messages, and a client that hears all messages on one connection answer their
calls alike, and know the same of every channel after each of them. Only where connections are lost
more often than can be counted may a call of the first come to no answer. -/
theorem resuming_hears_one_stream (listing : Listing request) (j : Journey) (tail : Bytes)
    (closes : Bool) (arrived : List (Except SessionFault Incoming)) {n single : Network}
    (hvalid : request.validate = .ok ()) (hmended : j.Mended request settings)
    (hcoming : n.coming = .ok (listing.incoming j.leg) :: (listing.behind j ++ arrived))
    (hsingle : single.coming = [.ok (listing.incoming ⟨j.messages, tail, closes⟩)]) :
    ∃ c n' s n'', Resuming.connect request settings false n = .ok (.ok c, n') ∧
      Subscription.connect request settings false single = .ok (.ok s, n'') ∧
      ∀ count ≤ (Pass.transcript listing.subscribed s.tracker j.messages).length,
        ∃ heard s', asked Subscription.next (fun s => some s.tracker) count s = .ok (heard, s') ∧
          heard = ((Pass.transcript listing.subscribed s.tracker j.messages).take count).map
            (fun x => (x.1, some x.2)) ∧
          ((∃ c', asked (Resuming.next false) Resuming.known count c = .ok (heard, c')) ∨
            UInt32.size ≤ j.losses ∧
              asked (Resuming.next false) Resuming.known count c = .error .undefined) := by
  let tracker := Subscription.newTracker request
  let first := listing.opened settings tracker j.leg
  let s := listing.opened settings tracker ⟨j.messages, tail, closes⟩
  let n' : Network := { n with coming := listing.behind j ++ arrived }
  let c : Resuming := ⟨request, settings, n', some first, 0⟩
  have hconnect : Resuming.connect request settings false n = .ok (.ok c, n') := by
    rw [Resuming.connect, connect_leg listing settings hvalid hcoming]
    rfl
  have hrides : Resuming.Rides listing settings arrived j.losses c first j.leg.messages j :=
    Resuming.rides_opened tracker rfl rfl rfl (Delivery.Tracker.keeps_rebuild_new _ _)
      (fun m hm => hmended.unended m (List.mem_append_left _ hm)) rfl (Nat.zero_add _)
  have hhears : s.Hears (listing.link settings ⟨j.messages, tail, closes⟩) j.messages :=
    ⟨.inl rfl, rfl, hmended.unended⟩
  have htranscript : s.pending j.messages =
      Pass.transcript listing.subscribed s.tracker j.messages :=
    Subscription.pending_of_none rfl
  have hpending : Resuming.pending first j.leg.messages j =
      Pass.transcript listing.subscribed s.tracker j.messages := by
    rw [Journey.messages, Pass.transcript_append]
    rfl
  refine ⟨c, n', s, _, hconnect, connect_leg listing settings hvalid hsingle, ?_⟩
  intro count hcount
  have hresuming := hrides.asked_eq hmended (hpending ▸ hcount)
  obtain ⟨s', -, hsubscription, -⟩ := hhears.asked_eq (htranscript ▸ hcount)
  rw [hpending] at hresuming
  rw [htranscript] at hsubscription
  refine ⟨_, s', ?_, rfl, hresuming⟩
  rw [asked_map some Subscription.next Subscription.tracker, hsubscription]
  rfl

namespace Sample

def bufferedRequest : StreamRequest :=
  { StreamRequest.ofPatterns "PFO.HHZ" with reorderCapacity := some 2 }

def patientSettings : ClientSettings :=
  { ClientSettings.standard with backoff := { Time.Backoff.standard with maxAttempts := 3 } }

def pfoListing : Listing bufferedRequest where
  parcel := channelList
  directory := directory
  subscribed := .ofList [⟨0x00030100, "PFO.HHZ", some "XX"⟩]
  lists := rfl
  parses := rfl
  selects := rfl

/-- Three legs. The first is lost inside a packet, and two attempts to connect fail behind it; the
second is lost at bytes that begin no message. A packet of the second waits for one of the third. -/
def roughJourney : Journey :=
  .lost ⟨[packet 0 0], (packet 1 16).encode.take 20, true⟩
    [.error (.connect "PFO" "connection refused"), .ok ⟨[], [], true⟩] <|
  .lost ⟨[packet 2 32, ⟨MessageKind.error.code, [0x62, 0x75, 0x73, 0x79], by decide⟩],
    List.replicate 12 0, false⟩ [] <|
  .last ⟨[packet 1 16], [], false⟩

theorem mended_roughJourney : roughJourney.Mended bufferedRequest patientSettings := by
  refine .lost (by decide) ⟨⟨.shortTransfer 38 8, by decide, rfl, nofun⟩, .inl rfl⟩
    ⟨?_, Time.Backoff.allows_of_le (by decide), by decide +kernel⟩ ?_
  · intro attempt hattempt
    rcases List.mem_cons.1 hattempt with rfl | hattempt
    · exact .refused rfl
    · obtain rfl := List.mem_singleton.1 hattempt
      exact .dropped rfl rfl
  · exact .lost (by decide)
      ⟨⟨.protocol (.signatureMismatch signature 0), by decide, rfl, nofun⟩, .inl rfl⟩
      ⟨nofun, Time.Backoff.allows_of_le (by decide), rfl⟩ (.last (by decide))

/-- The record that waits when the second connection is lost comes out behind the one it waited
for. -/
theorem resuming_hears_one_stream_in_order :
    roughJourney.Mended bufferedRequest patientSettings ∧ bufferedRequest.validate = .ok () ∧
      ∃ c n' heard c', Resuming.connect bufferedRequest patientSettings false
          ⟨"PFO", .ok (pfoListing.incoming roughJourney.leg) ::
            (pfoListing.behind roughJourney ++ []), []⟩ = .ok (.ok c, n') ∧
        asked (Resuming.next false) Resuming.known 4 c = .ok (heard, c') ∧
        heard.map (fun x => x.1.map fun r => r.bind Waveform.Record.sequence) =
          [.ok (some 0), .error (.server "busy"), .ok (some 1), .ok (some 2)] := by
  refine ⟨mended_roughJourney, rfl, ?_⟩
  let whole : Leg := ⟨roughJourney.messages, [], true⟩
  let single : Network := ⟨"PFO", [.ok (pfoListing.incoming whole)], []⟩
  have hcoming : single.coming = [.ok (pfoListing.incoming whole)] := rfl
  obtain ⟨c, n', s, n'', hconnect, hsingle, hheard⟩ := resuming_hears_one_stream pfoListing
    roughJourney [] true [] (n := ⟨"PFO", _, []⟩) rfl mended_roughJourney rfl hcoming
  have hopened := connect_leg (n := single) pfoListing patientSettings rfl rfl
  obtain ⟨hs, -⟩ := Prod.mk.inj (Except.ok.inj (hopened.symm.trans hsingle))
  obtain rfl := Except.ok.inj hs
  obtain ⟨heard, s', -, rfl, hresuming⟩ := hheard 4 (by decide +kernel)
  obtain ⟨c', hresuming⟩ := hresuming.resolve_right fun hhalts => absurd hhalts.1 (by decide)
  exact ⟨c, n', _, c', hconnect, hresuming, by decide +kernel⟩

end Sample

end SeisFeed.Session
