import Mathlib.Logic.Relation
import SeisFeed.Proofs.Session.Reconnecting
import SeisFeed.Proofs.Session.Subscribing
/-!
# What a subscription says

A client's side of a subscription is short. It greets the server and subscribes; while it reads it
may ask the server to keep the connection alive; and it may say that the subscription is over, after
which it says nothing more. `Moves` is one step of using a subscription, whatever the caller does
and the server sends: a call is answered, or the caller gives it up after one of its turns. `Kept`
is what carries over to every later state, `Turned` the inversion lemma of a turn, and `Spoken` the
invariant of what was said.
-/

namespace SeisFeed.Session

open Delivery (Tracker)
open Waveform (PacketFault Record)
open Wire (Bytes)

namespace Subscription

variable {s s' s'' : Subscription} {P : Subscription → Prop} {opening : List Request} {a : Next}

/-! ### Turns -/

/-- Receiving on a link leaves the client's side of it as it is. -/
structure Unsaid (link rest : Link) : Prop where
  sent : rest.sent = link.sent
  writable : rest.writable = link.writable

/-- What a turn of reading comes to. -/
inductive Turned (s : Subscription) : Turn Next Subscription → Prop where
  | handed {r : Record} {rs : List Record} (hready : s.ready = r :: rs) :
      Turned s (.answer (.ok (some r)) { s with ready := rs })
  | prompted {link : Link} (hsent : link.sent = s.link.sent ++ [Request.requestPending.encode])
      (hwritable : link.writable = true) : Turned s (.again { s with link := link })
  | muted {link : Link} {fault : SessionFault} (hwritable : s.link.writable = false) :
      Turned s (.answer (.error fault) { s with link := link })
  | packed {rest : Link} {body : Bytes} {result : Except PacketFault Record}
      (hrest : Unsaid s.link rest)
      (hresult : result = Waveform.decodeCompressed s.subscribed body ∨
        result = Waveform.decodeDecompressed s.subscribed body) :
      Turned s (.again (({ s with link := rest } : Subscription).accept result))
  | passed {rest : Link} (hrest : Unsaid s.link rest) : Turned s (.again { s with link := rest })
  | refused {rest : Link} {text : String} (hrest : Unsaid s.link rest) :
      Turned s (.answer (.error (.server text)) { s with link := rest })
  | lost {rest : Link} {fault : SessionFault} (hrest : Unsaid s.link rest) :
      Turned s (.answer (.error fault) { s with link := rest, phase := .closed })
  | ended {rest : Link} {closed : Subscription} (hrest : Unsaid s.link rest)
      (hclosed : closed = ({ s with link := rest } : Subscription).finish) :
      Turned s (.answer (.ok closed.ready.head?) { closed with ready := closed.ready.tail })

theorem pop_eq (s : Subscription) : s.pop = (s.ready.head?, { s with ready := s.ready.tail }) := by
  obtain ⟨_, _, _, _, _, _, ready, _⟩ := s
  cases ready with
  | nil => rfl
  | cons r rs => rfl

theorem turned_close {rest : Link} (hrest : Unsaid s.link rest) :
    Turned s ({ s with link := rest } : Subscription).close := by
  rw [close, pop_eq]
  exact .ended hrest rfl

theorem turned_handle {rest : Link} (hrest : Unsaid s.link rest) (m : Message) :
    Turned s (({ s with link := rest } : Subscription).handle m) := by
  rw [handle]
  split
  · exact .packed hrest (.inl rfl)
  · exact .packed hrest (.inr rfl)
  · exact .refused hrest
  · exact turned_close hrest
  · exact .passed hrest

theorem turned_fail {rest : Link} {fault : SessionFault} (hrest : Unsaid s.link rest)
    (hfatal : fault.isConnectionFatal = true) :
    Turned s (({ s with link := rest } : Subscription).fail fault) := by
  by_cases hended : fault = .disconnected
  · subst hended
    exact turned_close hrest
  · rw [fail_eq hended, hfatal]
    exact .lost hrest

theorem turn_prompt {result : Except SessionFault Unit} {link : Link} (hready : s.ready = [])
    (hwait : s.mustWait = true) (hsend : Link.sendRequest .requestPending s.link = (result, link)) :
    s.turn =
      match result with
      | .ok () => .again { s with link := link }
      | .error fault => .answer (.error fault) { s with link := link } := by
  rw [turn, hready]
  simp only [hwait, hsend, if_true]
  cases result <;> rfl

theorem turned (s : Subscription) : Turned s s.turn := by
  cases hready : s.ready with
  | cons r rs =>
    rw [turn, hready]
    exact .handed hready
  | nil =>
    by_cases hwait : s.mustWait = true
    · cases hwritable : s.link.writable with
      | true =>
        obtain ⟨link, hsend, hsent, hlink⟩ :=
          Link.sendRequest_of_writable hwritable Request.requestPending
        rw [turn_prompt hready hwait hsend]
        exact .prompted hsent hlink
      | false =>
        have hsend : Link.sendRequest .requestPending s.link =
            (.error (.io "broken pipe"), s.link) := by
          simp [Link.sendRequest, Link.send, isEmpty_encode_request, hwritable]
        rw [turn_prompt hready hwait hsend]
        exact .muted hwritable
    · rcases hreceive : Link.receiveMessage s.link with ⟨result, rest⟩
      obtain ⟨hsent, hwritable, -⟩ := Link.receiveMessage_frame hreceive
      rw [turn_receive hready (by simpa using hwait) hreceive]
      cases result with
      | ok m => exact turned_handle ⟨hsent, hwritable⟩ m
      | error fault =>
        exact turned_fail ⟨hsent, hwritable⟩
          (Link.failsForGood_receiveMessage s.link fault (by rw [hreceive]))

theorem phase_of_again (h : s.turn = .again s') : s'.phase = s.phase := by
  have hturned := turned s
  rw [h] at hturned
  cases hturned with
  | prompted => rfl
  | passed => rfl
  | packed => exact (accept_frame _ _).2.1

/-! ### Moves -/

/-- What a caller may do with a subscription. -/
inductive Call where
  | next
  | terminate (reason : ShutdownReason) (text : String)

def call (s : Subscription) : Call → Except Halt (Next × Subscription)
  | .next => s.next
  | .terminate reason text =>
    let (result, s) := s.terminate reason text
    .ok (result.map fun () => none, s)

/-- Whether a call for the next record would receive messages. -/
def Reads (s : Subscription) : Prop :=
  s.phase = .subscribed ∨ s.phase = .streaming

def reading (s : Subscription) : Subscription :=
  { s with phase := .streaming }

/-- What may become of a subscription: a call on it is answered, or one that reads has gone through
a turn and is given up. Time may also have come to ask that the connection be kept alive before
all bytes that are there have been read. -/
inductive Moves (s : Subscription) : Subscription → Prop where
  | called {s' : Subscription} {answer : Next} (call : Call)
      (hcall : s.call call = .ok (answer, s')) : Moves s s'
  | turned (hreads : s.Reads) : Moves s s.reading.turn.state
  | prompted {link : Link} (hreads : s.Reads) (hdue : s.request.pendingInterval ≠ none)
      (hsend : Link.sendRequest .requestPending s.link = (.ok (), link)) :
      Moves s { s.reading with link := link }

/-- What may become of a subscription over time. -/
abbrev Later : Subscription → Subscription → Prop :=
  Relation.ReflTransGen Moves

/-- A property that every step of using a subscription keeps. -/
structure Kept (P : Subscription → Prop) : Prop where
  handed : ∀ s r rs, P s → s.ready = r :: rs → P { s with ready := rs }
  ended : ∀ s reason text, P s → P (s.terminate reason text).2
  reading : ∀ s, P s → s.Reads → P s.reading
  turned : ∀ s, P s → s.Reads → P s.turn.state
  prompted : ∀ s link, P s → s.Reads →
    Link.sendRequest .requestPending s.link = (.ok (), link) → P { s with link := link }

theorem Kept.last_turn (hkept : Kept P) (hs : P s) (hreads : s.Reads)
    (h : untilAnswer size (fun s => .ok s.turn) s = .ok (a, s')) :
    ∃ last, P last ∧ last.Reads ∧ last.turn = .answer a s' := by
  have hagain (t t' : Subscription) (ht : P t ∧ t.Reads)
      (hturn : (.ok t.turn : Except Halt _) = .ok (.again t')) : P t' ∧ t'.Reads := by
    have hturn : t.turn = .again t' := Except.ok.inj hturn
    have hstate := hkept.turned t ht.1 ht.2
    rw [hturn] at hstate
    refine ⟨hstate, ?_⟩
    rw [Reads, phase_of_again hturn]
    exact ht.2
  obtain ⟨last, ⟨hlast, hlastReads⟩, hturn⟩ :=
    untilAnswer_invariant (P := fun t => P t ∧ t.Reads) hagain ⟨hs, hreads⟩ h
  exact ⟨last, hlast, hlastReads, Except.ok.inj hturn⟩

/-- A call for the next record is answered by its last turn; or a record was laid out before the
call, or there is nothing more to read. -/
theorem Kept.next (hkept : Kept P) (hs : P s) (h : s.next = .ok (a, s')) :
    (∃ last, P last ∧ last.Reads ∧ last.turn = .answer a s') ∨
      (∃ r rs, s.ready = r :: rs ∧ a = .ok (some r) ∧ s' = { s with ready := rs }) ∨
      s' = s ∧ ∀ r, a ≠ .ok (some r) := by
  rw [Subscription.next] at h
  split at h
  · next r rs hready =>
    obtain ⟨rfl, rfl⟩ := Prod.mk.inj (Except.ok.inj h)
    exact .inr (.inl ⟨r, rs, hready, rfl, rfl⟩)
  · obtain ⟨rfl, rfl⟩ := Prod.mk.inj (Except.ok.inj h)
    exact .inr (.inr ⟨rfl, by simp⟩)
  · next hphase => exact .inl (hkept.last_turn (hkept.reading s hs (.inl hphase)) (.inr rfl) h)
  · next hphase => exact .inl (hkept.last_turn (hkept.reading s hs (.inr hphase)) (.inr rfl) h)
  · obtain ⟨rfl, rfl⟩ := Prod.mk.inj (Except.ok.inj h)
    exact .inr (.inr ⟨rfl, by simp⟩)

theorem Kept.moves (hkept : Kept P) (hs : P s) (h : Moves s s') : P s' := by
  cases h with
  | turned hreads => exact hkept.turned _ (hkept.reading s hs hreads) (.inr rfl)
  | prompted hreads _ hsend =>
    exact hkept.prompted _ _ (hkept.reading s hs hreads) (.inr rfl) hsend
  | called call hcall =>
    cases call with
    | terminate reason text =>
      obtain ⟨-, rfl⟩ := Prod.mk.inj (Except.ok.inj hcall)
      exact hkept.ended s reason text hs
    | next =>
      rcases hkept.next hs hcall with
        ⟨last, hlast, hreads, hturn⟩ | ⟨r, rs, hready, -, rfl⟩ | ⟨rfl, -⟩
      · have hstate := hkept.turned last hlast hreads
        rw [hturn] at hstate
        exact hstate
      · exact hkept.handed s r rs hs hready
      · exact hs

theorem Kept.later (hkept : Kept P) (hs : P s) (h : Later s s') : P s' := by
  induction h with
  | refl => exact hs
  | tail _ hmoves ih => exact hkept.moves ih hmoves

/-! ### What was said -/

/-- What a client has said on a link that it opened with some requests: after them only requests to
keep the connection alive and, once the subscription is closed, perhaps that it is over. -/
inductive Spoken (opening : List Request) (s : Subscription) : Prop where
  | talking (count : Nat) (hreads : s.Reads) (hwritable : s.link.writable = true)
      (hsent : s.link.sent =
        (opening ++ List.replicate count Request.requestPending).map Request.encode)
  | ended (count : Nat) (last : List Request) (hclosed : s.phase = .closed)
      (hlast : last = [] ∨ ∃ reason text, last = [.terminateSubscription reason text])
      (hsent : s.link.sent =
        (opening ++ List.replicate count Request.requestPending ++ last).map Request.encode)

theorem not_reads_of_closed (h : s.phase = .closed) : ¬ s.Reads := by
  simp [Reads, h]

theorem Spoken.prompted {link : Link} (hs : Spoken opening s) (hreads : s.Reads)
    (hsent : link.sent = s.link.sent ++ [Request.requestPending.encode])
    (hwritable : link.writable = true) : Spoken opening { s with link := link } := by
  cases hs with
  | ended _ _ hclosed => exact absurd hreads (not_reads_of_closed hclosed)
  | talking count _ _ hbefore =>
    refine .talking (count + 1) hreads hwritable ?_
    rw [hsent, hbefore, List.replicate_succ']
    simp

theorem kept_spoken (opening : List Request) : Kept (Spoken opening) where
  handed s r rs hs _ := by
    cases hs with
    | talking count hreads hwritable hsent => exact .talking count hreads hwritable hsent
    | ended count last hclosed hlast hsent => exact .ended count last hclosed hlast hsent
  reading s hs hreads := by
    cases hs with
    | talking count _ hwritable hsent => exact .talking count (.inr rfl) hwritable hsent
    | ended _ _ hclosed => exact absurd hreads (not_reads_of_closed hclosed)
  ended s reason text hs := by
    rw [terminate]
    split
    · exact hs
    · next hopen =>
      cases hs with
      | ended _ _ hclosed => exact absurd hclosed hopen
      | talking count _ hwritable hsent =>
        refine .ended count _ rfl (.inr ⟨reason, text, rfl⟩) ?_
        rw [Link.farewell, Link.sendRequest_of_kind hwritable]
        · simp [Link.shutdown, Link.after, hsent]
        · simp [Request.kind]
  prompted s link hs hreads hsend := by
    cases hs with
    | ended _ _ hclosed => exact absurd hreads (not_reads_of_closed hclosed)
    | talking count _ hwritable hsent =>
      obtain ⟨link', hsend', hmore, hlink⟩ :=
        Link.sendRequest_of_writable hwritable Request.requestPending
      obtain rfl : link = link' := (Prod.mk.inj (hsend.symm.trans hsend')).2
      exact (Spoken.talking count hreads hwritable hsent).prompted hreads hmore hlink
  turned s hs hreads := by
    cases hs with
    | ended _ _ hclosed => exact absurd hreads (not_reads_of_closed hclosed)
    | talking count _ hwritable hsent =>
      have hspoken : Spoken opening s := .talking count hreads hwritable hsent
      have hturned := turned s
      generalize s.turn = outcome at hturned
      cases hturned with
      | handed => exact .talking count hreads hwritable hsent
      | prompted hmore hlink => exact hspoken.prompted hreads hmore hlink
      | muted hmuted => simp [hwritable] at hmuted
      | @packed rest _ result hrest =>
        obtain ⟨hlink, hphase, -⟩ := ({ s with link := rest } : Subscription).accept_frame result
        refine .talking count ?_ ?_ ?_
        · rw [Reads, Turn.state, hphase]
          exact hreads
        · rw [Turn.state, hlink]
          exact hrest.writable.trans hwritable
        · rw [Turn.state, hlink]
          exact hrest.sent.trans hsent
      | passed hrest =>
        exact .talking count hreads (hrest.writable.trans hwritable) (hrest.sent.trans hsent)
      | refused hrest =>
        exact .talking count hreads (hrest.writable.trans hwritable) (hrest.sent.trans hsent)
      | lost hrest =>
        refine .ended count [] rfl (.inl rfl) ?_
        rw [List.append_nil]
        exact hrest.sent.trans hsent
      | ended hrest hclosed =>
        subst hclosed
        refine .ended count [] rfl (.inl rfl) ?_
        rw [List.append_nil]
        exact hrest.sent.trans hsent

theorem kept_closed (link : Link) : Kept fun s => s.phase = .closed ∧ s.link = link where
  handed _ _ _ hs _ := hs
  reading _ hs hreads := absurd hreads (not_reads_of_closed hs.1)
  turned _ hs hreads := absurd hreads (not_reads_of_closed hs.1)
  prompted _ _ hs hreads := absurd hreads (not_reads_of_closed hs.1)
  ended s reason text hs := by
    rw [terminate, if_pos hs.1]
    exact hs

/-- **What a client says to a server.** A client that subscribes as a checked request asks greets
the server and hears one message. It subscribes exactly if this message announces channels that it
wants, and then to these, in the order announced; it fails otherwise, having said nothing more, and
blames the request only if it wants none of the channels announced. Whatever happens later, it says
nothing but that the connection be kept alive and, once, that the subscription is over; once closed
it is silent. -/
theorem conversation {request : StreamRequest} (hvalid : request.validate = .ok ())
    (tracker : Tracker) (incoming : Incoming) (readTimeout : Time.Duration) :
    ∃ ps, Pattern.parseList request.patterns request.network = .ok ps ∧
      ((∃ s, openOn request tracker (.opened incoming readTimeout) = .ok s) ↔
        ∃ cs, Announces incoming cs ∧ wanted ps cs ≠ []) ∧
      (∀ fault link, openOn request tracker (.opened incoming readTimeout) = .error (fault, link) →
        link.sent = [Request.connect.encode] ∧
          ∀ reason, fault = .config reason → ∃ cs, Announces incoming cs ∧ wanted ps cs = []) ∧
      ∀ s, openOn request tracker (.opened incoming readTimeout) = .ok s →
        ∃ cs keys, Announces incoming cs ∧ keys = (wanted ps cs).map Channel.key ∧ keys.Nodup ∧
          keys.Sublist (cs.map Channel.key) ∧ s.subscribed.keys = keys ∧
          ∀ s', Later s s' →
            Spoken [.connect, .addTimeSeriesChannels keys request.completion.code request.outFormat
              request.buffered] s' ∧
            (s'.phase = .closed → ∀ s'', Later s' s'' → s''.link = s'.link) := by
  obtain ⟨ps, hparse⟩ := patterns_of_validate hvalid
  have hopening := opening_openOn hparse tracker (.opened incoming readTimeout) rfl
  refine ⟨ps, hparse, ?_⟩
  generalize openOn request tracker (.opened incoming readTimeout) = outcome at hopening
  cases hopening with
  | @subscribed cs rest hannounces hwanted hsent hwritable =>
    refine ⟨iff_of_true ⟨_, rfl⟩ ⟨cs, hannounces, hwanted⟩, by simp, ?_⟩
    rintro s ⟨⟩
    refine ⟨cs, _, hannounces, rfl, nodup_keys_wanted ps cs, (wanted_sublist ps cs).map _,
      keys_selection ps cs, ?_⟩
    intro s' hlater
    refine ⟨(kept_spoken _).later ?_ hlater, fun hclosed s'' hlater' => ?_⟩
    · rw [subscription, Link.opened, List.nil_append] at hsent
      refine .talking 0 (.inl rfl) hwritable ?_
      rw [List.replicate_zero, List.append_nil]
      exact hsent
    · exact ((kept_closed s'.link).later ⟨hclosed, rfl⟩ hlater').2
  | @unmatched cs reason rest hannounces hwanted hsent =>
    refine ⟨iff_of_false (by simp) ?_, ?_, by simp⟩
    · rintro ⟨cs', hannounces', hsome⟩
      obtain rfl : cs' = cs := hannounces'.unique hannounces
      exact hsome hwanted
    · rintro fault link ⟨⟩
      exact ⟨hsent, fun _ _ => ⟨cs, hannounces, hwanted⟩⟩
  | unannounced hnone hfault hsent =>
    refine ⟨iff_of_false (by simp) ?_, ?_, by simp⟩
    · rintro ⟨cs, hannounces, -⟩
      exact hnone cs hannounces
    · rintro fault link ⟨⟩
      exact ⟨hsent, fun reason hreason => absurd hreason (hfault reason)⟩

end Subscription

namespace Sample

open Subscription (Spoken)

def patientRequest : StreamRequest :=
  { bufferedRequest with pendingInterval := some (.ofSeconds 30) }

/-- A server that lists its channel and holds its packets back until it is asked to go on. -/
def pausing : Incoming :=
  ⟨channelList.encode, [(packet 0 0).encode], false⟩

/-- The link to that server once its list has been heard. -/
def withheld : Link :=
  .opened ⟨[], [(packet 0 0).encode], false⟩ .zero

def awaiting : Subscription :=
  .opened patientRequest (Subscription.newTracker patientRequest) directory pfoListing.subscribed
    ((withheld.after .connect).after
      (.addTimeSeriesChannels pfoListing.subscribed.keys (-1) (-1) false))

theorem openOn_pausing : Subscription.openOn patientRequest (Subscription.newTracker patientRequest)
    (.opened pausing .zero) = .ok awaiting := by
  have hcarries : Link.opened pausing .zero = withheld.carrying [channelList] := by
    simp [pausing, withheld, Link.carrying, Link.withReady, Link.opened]
  have hhandshake : Subscription.handshake patientRequest (withheld.carrying [channelList]) =
      (.ok (directory, pfoListing.subscribed), awaiting.link) :=
    Subscription.handshake_carrying [] rfl pfoListing.lists pfoListing.parses pfoListing.selects
  rw [Subscription.openOn, hcarries, hhandshake]
  rfl

def heardFrom (s : Subscription) : Option (Waveform.Record × Subscription) :=
  match s.next with
  | .ok (.ok (some r), s') => some (r, s')
  | _ => none

theorem next_of_heardFrom {s s' : Subscription} {r : Waveform.Record}
    (h : heardFrom s = some (r, s')) : s.next = .ok (.ok (some r), s') := by
  rw [heardFrom] at h
  split at h
  · next hnext =>
    obtain ⟨rfl, rfl⟩ := Prod.mk.inj (Option.some.inj h)
    exact hnext
  · cases h

/-- A client that waits for the first packet asks for it, and then says that it has enough. -/
theorem conversation_with_pausing_server :
    patientRequest.validate = .ok () ∧
      ∃ s r s', Subscription.openOn patientRequest (Subscription.newTracker patientRequest)
          (.opened pausing .zero) = .ok s ∧
        s.next = .ok (.ok (some r), s') ∧
        Spoken [.connect, .addTimeSeriesChannels [0x00030100] (-1) (-1) false]
          (s'.terminate .normal "enough").2 ∧
        (s'.terminate .normal "enough").2.link.sent.map kindOf? =
          [some .connect, some .addTimeSeriesChannels, some .requestPending,
            some .terminateSubscription] := by
  have hvalid : patientRequest.validate = .ok () := rfl
  obtain ⟨⟨r, s'⟩, hheard⟩ : ∃ x, heardFrom awaiting = some x :=
    Option.isSome_iff_exists.1 (by decide +kernel)
  have hkinds : (heardFrom awaiting).map (fun x =>
      (x.2.terminate .normal "enough").2.link.sent.map kindOf?) =
        some [some .connect, some .addTimeSeriesChannels, some .requestPending,
          some .terminateSubscription] := by decide +kernel
  rw [hheard] at hkinds
  have hnext := next_of_heardFrom hheard
  obtain ⟨ps, -, -, -, hsaid⟩ := Subscription.conversation hvalid
    (Subscription.newTracker patientRequest) pausing .zero
  obtain ⟨cs, keys, -, -, -, -, hkeys, hlater⟩ := hsaid awaiting openOn_pausing
  obtain rfl : [0x00030100] = keys := hkeys
  have hmoves : Subscription.Later awaiting (s'.terminate .normal "enough").2 :=
    .tail (.single (.called .next hnext))
      (.called (.terminate .normal "enough") rfl)
  exact ⟨hvalid, awaiting, r, s', openOn_pausing, hnext, (hlater _ hmoves).1,
    Option.some.inj hkinds⟩

end Sample

end SeisFeed.Session
