import SeisFeed.Proofs.Session.Exchange
import SeisFeed.Proofs.Session.Retrying
import SeisFeed.Session.Resuming
/-!
# Journeys

A stream may come in legs. On the connection of a leg a server lists the same channels and sends
some messages, and then the connection is lost; some attempts to connect fail, and the next one
leads to a server again. A client whose connection is lost subscribes on the next leg and goes on
with the tracker that it had.
-/

namespace SeisFeed.Session

open Delivery (Tracker)
open Wire (Bytes)

/-- A list of channels of which a request selects some. -/
structure Listing (request : StreamRequest) where
  parcel : Parcel
  directory : Directory
  subscribed : Directory
  lists : MessageKind.ofCode? parcel.code = some .channelList
  parses : Directory.parse parcel.body = .ok directory
  selects : selectChannels directory request.patterns request.network = .ok subscribed

/-- What a server sends behind its list of channels: messages, and then bytes that are no
message. -/
structure Leg where
  messages : List Parcel
  tail : Bytes
  closes : Bool

namespace Leg

def rest (leg : Leg) : Incoming :=
  ⟨leg.tail, [], leg.closes⟩

end Leg

/-- The connections over which a stream comes. Behind a leg that is lost come the attempts to
connect that fail before the next leg. -/
inductive Journey where
  | last (leg : Leg)
  | lost (leg : Leg) (failures : List (Except SessionFault Incoming)) (next : Journey)

namespace Journey

def leg : Journey → Leg
  | last leg | lost leg .. => leg

def later : Journey → List Parcel
  | last _ => []
  | lost _ _ next => next.leg.messages ++ next.later

def messages (j : Journey) : List Parcel :=
  j.leg.messages ++ j.later

/-- How often the connection is lost on the way. -/
def losses : Journey → Nat
  | last _ => 0
  | lost _ _ next => next.losses + 1

end Journey

variable {request : StreamRequest} {settings : ClientSettings}

namespace Listing

variable (listing : Listing request)

def incoming (leg : Leg) : Incoming :=
  ⟨listing.parcel.encode ++ (Parcel.stream leg.messages ++ leg.tail), [], leg.closes⟩

def behind : Journey → List (Except SessionFault Incoming)
  | .last _ => []
  | .lost _ failures next => failures ++ .ok (listing.incoming next.leg) :: behind next

/-- The link of a leg behind its messages, once the client has subscribed on it. -/
def link (settings : ClientSettings) (leg : Leg) : Link :=
  ((Link.opened leg.rest settings.readTimeout).after .connect).after
    (.addTimeSeriesChannels listing.subscribed.keys request.completion.code request.outFormat
      request.buffered)

/-- What a leg brings behind its messages does not depend on what the client has sent. -/
theorem receiveMessage_link (settings : ClientSettings) (leg : Leg) :
    (Link.receiveMessage (listing.link settings leg)).1 =
      (Link.receiveMessage (Link.opened leg.rest settings.readTimeout)).1 := by
  have hblind := Link.blind_receiveMessage (Link.opened leg.rest settings.readTimeout)
    (listing.link settings leg).sent
  have hfirst := congrArg Prod.fst hblind
  exact hfirst

theorem handshake_leg (settings : ClientSettings) (leg : Leg) :
    Subscription.handshake request (Link.opened (listing.incoming leg) settings.readTimeout) =
      (.ok (listing.directory, listing.subscribed),
        (listing.link settings leg).carrying leg.messages) := by
  have hopened : Link.opened (listing.incoming leg) settings.readTimeout =
      (Link.opened leg.rest settings.readTimeout).carrying (listing.parcel :: leg.messages) := by
    rw [Link.carrying, Parcel.stream_cons, List.append_assoc]
    rfl
  rw [hopened]
  exact Subscription.handshake_carrying leg.messages rfl listing.lists
    listing.parses listing.selects

def opened (settings : ClientSettings) (tracker : Tracker) (leg : Leg) : Subscription :=
  .opened request tracker listing.directory listing.subscribed
    ((listing.link settings leg).carrying leg.messages)

theorem openOn_leg (settings : ClientSettings) (tracker : Tracker) (leg : Leg) :
    Subscription.openOn request tracker
        (Link.opened (listing.incoming leg) settings.readTimeout) =
      .ok (listing.opened settings tracker leg) := by
  rw [Subscription.openOn, listing.handshake_leg settings leg]
  rfl

theorem size_opened_le (settings : ClientSettings) (leg : Leg) {tracker : Tracker}
    (hrebuild : tracker.rebuild listing.subscribed = tracker) :
    (listing.opened settings tracker leg).size ≤
      (listing.incoming leg).size + tracker.waitingCount := by
  show ((listing.link settings leg).carrying leg.messages).size +
    ([] : List Waveform.Record).length + (tracker.rebuild listing.subscribed).waitingCount ≤ _
  have hlink : (listing.link settings leg).size = leg.tail.length := rfl
  rw [hrebuild, Link.size_carrying, hlink]
  simp only [incoming, Incoming.size, List.length_append, List.length_nil, List.flatten_nil]
  omega

end Listing

/-! ### Mending a connection -/

/-- An attempt that fails in a way another may mend: no server accepts it, or none can be subscribed
to on its connection. -/
inductive FailsToSubscribe (request : StreamRequest) (settings : ClientSettings) :
    Except SessionFault Incoming → Prop where
  | refused {fault : SessionFault} (hfatal : fault.isConnectionFatal = true) :
      FailsToSubscribe request settings (.error fault)
  | dropped {incoming : Incoming} {fault : SessionFault} {link : Link}
      (hhandshake : Subscription.handshake request (Link.opened incoming settings.readTimeout) =
        (.error fault, link))
      (hfatal : fault.isConnectionFatal = true) : FailsToSubscribe request settings (.ok incoming)

/-- How a leg is lost: what comes behind its messages is a fault of the connection. Only where
nothing can wait to be reordered may the server also end the stream in order. -/
structure Leg.Breaks (request : StreamRequest) (settings : ClientSettings) (leg : Leg) : Prop where
  fault : ∃ fault,
    (Link.receiveMessage (Link.opened leg.rest settings.readTimeout)).1 = .error fault ∧
    fault.isConnectionFatal = true ∧ (fault = .disconnected → request.effectiveCapacity = none)
  /-- Behind a silent server, a client that keeps its connection alive would wait for ever. -/
  awaited : request.pendingInterval = none ∨ leg.rest.readable = true

/-- One more attempt is allowed behind those that fail, and the waits behind them are defined. -/
structure Mends (request : StreamRequest) (settings : ClientSettings)
    (failures : List (Except SessionFault Incoming)) : Prop where
  failing : ∀ attempt ∈ failures, FailsToSubscribe request settings attempt
  within : settings.backoff.Allows (failures.length + 1)
  waits : (settings.backoff.delays? settings.backoff.initial failures.length).isSome

/-- No message of the journey ends the stream, and each leg but the last is lost and mended. -/
inductive Journey.Mended (request : StreamRequest) (settings : ClientSettings) :
    Journey → Prop where
  | last {leg : Leg} (hunended : ∀ m ∈ leg.messages, m.ends = false) :
      Mended request settings (.last leg)
  | lost {leg : Leg} {failures : List (Except SessionFault Incoming)} {next : Journey}
      (hunended : ∀ m ∈ leg.messages, m.ends = false) (hbreaks : leg.Breaks request settings)
      (hmends : Mends request settings failures) (hnext : Mended request settings next) :
      Mended request settings (.lost leg failures next)

theorem Journey.Mended.unended {j : Journey} (h : j.Mended request settings) :
    ∀ m ∈ j.messages, m.ends = false := by
  induction h with
  | last hunended => simpa [messages, leg, later] using hunended
  | @lost leg failures next hunended _ _ _ ih =>
    intro m hm
    rcases List.mem_append.1 hm with hm | hm
    · exact hunended m hm
    · exact ih m hm

namespace Resuming

def subscribing (request : StreamRequest) (settings : ClientSettings) (tracker : Tracker)
    (_ : Nat) (n : Network) : Attempt Subscription × Network :=
  (⟨.zero, (attempt request settings tracker n).1⟩, (attempt request settings tracker n).2)

theorem attempt_failing (tracker : Tracker) {n : Network}
    {coming : List (Except SessionFault Incoming)} {leading : Except SessionFault Incoming}
    (hcoming : n.coming = leading :: coming) (hfails : FailsToSubscribe request settings leading) :
    ∃ fault, (attempt request settings tracker n).1 = .error fault ∧
      fault.isConnectionFatal = true ∧ (attempt request settings tracker n).2.coming = coming := by
  cases hfails with
  | @refused fault hfatal =>
    refine ⟨fault, ?_, hfatal, ?_⟩
    · simp only [attempt, Network.connect, hcoming]
    · simp only [attempt, Network.connect, hcoming]
  | @dropped incoming fault link hhandshake hfatal =>
    refine ⟨fault, ?_, hfatal, ?_⟩
    · simp only [attempt, Network.connect, hcoming, Subscription.openOn, hhandshake]
    · simp only [attempt, Network.connect, hcoming, Subscription.openOn, hhandshake]
      rfl

theorem attempt_leg (listing : Listing request) (settings : ClientSettings) (tracker : Tracker)
    {n : Network} {leg : Leg} {coming : List (Except SessionFault Incoming)}
    (hcoming : n.coming = .ok (listing.incoming leg) :: coming) :
    attempt request settings tracker n =
      (.ok (listing.opened settings tracker leg), { n with coming := coming }) := by
  simp only [attempt, Network.connect, hcoming, listing.openOn_leg]

theorem fails_subscribing (tracker : Tracker)
    {failures coming : List (Except SessionFault Incoming)}
    (hfails : ∀ attempt ∈ failures, FailsToSubscribe request settings attempt) (number : Nat)
    {n : Network} (hcoming : n.coming = failures ++ coming) :
    ∃ n' : Network, RetryPolicy.Fails (subscribing request settings tracker) number
      failures.length n n' ∧ n'.coming = coming := by
  induction failures generalizing n number with
  | nil => exact ⟨n, .none, hcoming⟩
  | cons leading failures ih =>
    obtain ⟨fault, hresult, hfatal, hbehind⟩ :=
      attempt_failing tracker hcoming (hfails leading List.mem_cons_self)
    obtain ⟨n', hrest, hcoming'⟩ := ih (fun attempt h => hfails attempt (List.mem_cons_of_mem _ h))
      (number + 1) hbehind
    exact ⟨n', .more rfl hresult hfatal hrest, hcoming'⟩

/-- A client whose connection is lost subscribes again on the next leg, with what it knew, unless it
cannot count that. -/
theorem resume_leg (listing : Listing request) {c : Resuming} {s : Subscription} {leg : Leg}
    {failures coming : List (Except SessionFault Incoming)} (hclient : c.client = some s)
    (hrequest : c.request = request) (hsettings : c.settings = settings)
    (hcoming : c.network.coming = failures ++ .ok (listing.incoming leg) :: coming)
    (hmends : Mends request settings failures) :
    (∃ c', c.resume false = .ok (.again c') ∧ c'.request = request ∧ c'.settings = settings ∧
      c'.client = some (listing.opened settings s.tracker leg) ∧ c'.network.coming = coming ∧
      c'.reconnects = c.reconnects + 1) ∨
      UInt32.size ≤ c.reconnects + 1 ∧ c.resume false = .error .undefined := by
  subst hrequest hsettings
  have hrelease : c.release =
      (s.tracker, { c with network := c.network.drop s.link, client := none }) := by
    rw [release, hclient]
  obtain ⟨n', hfails, hcoming'⟩ := fails_subscribing s.tracker hmends.failing 1
    (n := c.network.drop s.link) hcoming
  have hleg := attempt_leg listing c.settings s.tracker hcoming'
  -- the network is attempted once for each server still to come, so the one behind them is reached
  have hfuel : failures.length < (c.network.drop s.link).attempts c.settings.backoff := by
    have hlength := congrArg List.length hcoming
    simp only [List.length_append, List.length_cons] at hlength
    show failures.length < c.network.coming.length + c.settings.backoff.maxAttempts.toNat + 1
    omega
  have hallows : c.settings.backoff.Allows (1 + failures.length) :=
    Nat.add_comm failures.length 1 ▸ hmends.within
  obtain ⟨run, hrun, hsuccess, hworld⟩ := RetryPolicy.attemptFrom_of_fails
    (p := Network.policy c.settings.backoff false) rfl hfails (congrArg Prod.fst hleg)
    hallows hmends.waits hfuel 0
  let resumed (reconnects : Nat) : Resuming := { c with
    network := run.world
    client := some (listing.opened c.settings s.tracker leg)
    reconnects := reconnects }
  have hreconnect : c.reconnect false =
      (countOn? c.reconnects).elim (.error .undefined) fun reconnects =>
        .ok (.ok (), resumed reconnects) := by
    rw [reconnect, hrelease]
    refine (congrArg (Except.bind · _) hrun).trans ?_
    simp only [Except.bind, hsuccess]
    cases countOn? c.reconnects <;> rfl
  rcases Nat.lt_or_ge (c.reconnects + 1) UInt32.size with hcount | hcount
  · rw [countOn?_eq hcount] at hreconnect
    refine .inl ⟨resumed (c.reconnects + 1), ?_, rfl, rfl, rfl, ?_, rfl⟩
    · rw [resume, hreconnect]
      rfl
    · show run.world.coming = coming
      rw [hworld]
      show (attempt c.request c.settings s.tracker n').2.coming = coming
      rw [hleg]
  · rw [countOn?_eq_none hcount] at hreconnect
    exact .inr ⟨hcount, by rw [resume, hreconnect]; rfl⟩

end Resuming

theorem connect_leg (listing : Listing request) (settings : ClientSettings)
    (hvalid : request.validate = .ok ()) {n : Network} {leg : Leg}
    {coming : List (Except SessionFault Incoming)}
    (hcoming : n.coming = .ok (listing.incoming leg) :: coming) :
    Subscription.connect request settings false n =
      .ok (.ok (listing.opened settings (Subscription.newTracker request) leg),
        { n with coming := coming }) := by
  rw [Subscription.connect, hvalid, Network.connectWithRetry_of_server settings hcoming]
  simp only [Except.map, listing.openOn_leg]

end SeisFeed.Session
