import SeisFeed.Proofs.Session.Reconnecting
/-!
# What survives a reconnection

A resuming client goes through turns: it answers from its connection, or the connection is lost and
a round of attempts to connect follows. `Run` follows a client turn by turn and remembers what it
knew of the channels when its last connection ended, as long as it has no other. A round that
succeeds at once goes on from there. A round that fails gives up the tracker together with the
connection, so a later round that succeeds knows nothing of the channels.
-/

namespace SeisFeed.Session

open Delivery (ChannelState Tracker)

theorem Subscription.tracker_of_openOn {request : StreamRequest} {tracker : Tracker} {link : Link}
    {s : Subscription} (h : openOn request tracker link = .ok s) :
    s.tracker = tracker.rebuild s.subscribed := by
  rw [openOn] at h
  split at h
  · cases h
  · obtain rfl := Except.ok.inj h
    rfl

namespace Resuming

variable {request : StreamRequest} {c c' : Resuming} {stopped : Bool}

theorem tracker_of_attempt {settings : ClientSettings} {tracker : Tracker} {n : Network}
    {s : Subscription} (h : (attempt request settings tracker n).1 = .ok s) :
    s.tracker = tracker.rebuild s.subscribed := by
  rw [attempt] at h
  split at h
  · cases h
  · split at h
    · cases h
    · next hopen =>
      obtain rfl := Except.ok.inj h
      exact Subscription.tracker_of_openOn hopen

/-! ### Rounds of attempts -/

/-- What a round of attempts comes to: it fails, and there is no connection, or there is a new one
that goes on with the tracker given up before. -/
inductive Round (c : Resuming) : Turn Next Resuming → Prop where
  | failed {a : Next} {c' : Resuming} (hclient : c'.client = none)
      (hrequest : c'.request = c.request) : Round c (.answer a c')
  | mended {c' : Resuming} {new : Subscription} (hclient : c'.client = some new)
      (hrequest : c'.request = c.request) (hreconnects : c'.reconnects = c.reconnects + 1)
      (htracker : new.tracker = c.release.1.rebuild new.subscribed) : Round c (.again c')

theorem client_release (c : Resuming) :
    c.release.2.client = none ∧ c.release.2.request = c.request ∧
      c.release.2.reconnects = c.reconnects := by
  rw [release]
  split
  · next hclient => exact ⟨hclient, rfl, rfl⟩
  · exact ⟨rfl, rfl, rfl⟩

theorem round_of_resume {outcome : Turn Next Resuming} (h : c.resume stopped = .ok outcome) :
    Round c outcome := by
  obtain ⟨hclient, hrequest, hreconnects⟩ := c.client_release
  -- the tracker was taken out of the client before the first attempt, whatever comes of them
  obtain ⟨⟨result, c'⟩, hreconnect, rfl⟩ := ok_of_map h
  rw [reconnect] at hreconnect
  obtain ⟨run, hrun, hstate⟩ := ok_of_bind hreconnect
  cases hresult : run.result with
  | error fault =>
    simp only [hresult] at hstate
    obtain ⟨rfl, rfl⟩ := Prod.mk.inj (Except.ok.inj hstate)
    cases fault <;> exact .failed hclient hrequest
  | ok new =>
    simp only [hresult] at hstate
    split at hstate
    · cases hstate
    next hcount =>
    obtain ⟨rfl, rfl⟩ := Prod.mk.inj (Except.ok.inj hstate)
    obtain ⟨_, n, hattempt, -⟩ := RetryPolicy.attempt_of_attemptFrom hrun hresult
    have hcounted := (eq_of_countOn? hcount).trans (congrArg (· + 1) hreconnects)
    exact .mended rfl hrequest hcounted (tracker_of_attempt hattempt)

/-! ### Turns -/

/-- A client that is about to look for a connection: it has none, or the one it had has just been
lost. -/
inductive Down (c : Resuming) : Resuming → Prop where
  | gone (hclient : c.client = none) : Down c c
  | lost {s s' : Subscription} {a : Next} (hclient : c.client = some s)
      (hnext : s.next = .ok (a, s')) (hloses : Subscription.Loses a) :
      Down c { c with client := some s' }

inductive Turned (c : Resuming) : Turn Next Resuming → Prop where
  | stopped : Turned c (.answer (.ok none) (c.terminate .normal "stopped").2)
  | heard {s s' : Subscription} {a : Next} (hclient : c.client = some s)
      (hnext : s.next = .ok (a, s')) : Turned c (.answer a { c with client := some s' })
  | sought {d : Resuming} {outcome : Turn Next Resuming} (hdown : Down c d)
      (hround : Round d outcome) : Turned c outcome

theorem turned {outcome : Turn Next Resuming} (h : c.turn stopped = .ok outcome) :
    Turned c outcome := by
  rw [turn] at h
  split at h
  · obtain rfl := Except.ok.inj h
    exact .stopped
  split at h
  · next hclient => exact .sought (.gone hclient) (round_of_resume h)
  · next s hclient =>
    split at h
    · cases h
    · next a s' hnext =>
      dsimp only at h
      split at h
      · obtain rfl := Except.ok.inj h
        exact .heard hclient hnext
      · exact .sought (.lost hclient hnext (.inl rfl)) (round_of_resume h)
      · next fault =>
        split at h
        · next hfatal =>
          exact .sought (.lost hclient hnext (.inr ⟨fault, rfl, hfatal⟩)) (round_of_resume h)
        · obtain rfl := Except.ok.inj h
          exact .heard hclient hnext

/-! ### Runs -/

/-- What a client knew of the channels when its last connection ended, or ends with this turn. -/
def lastKnown (c : Resuming) (ended : Option Tracker) : Tracker :=
  match c.client with
  | none => ended.getD (Subscription.newTracker c.request)
  | some s =>
    match s.next with
    | .ok (_, s') => s'.tracker
    | .error _ => s.tracker

/-- A run of a client from connecting on. While it has no connection, the run remembers what was
known when the last one ended. -/
inductive Run (request : StreamRequest) : Resuming → Option Tracker → Prop where
  | connected {settings : ClientSettings} {stopped : Bool} {n n' : Network} {c : Resuming}
      (hconnect : connect request settings stopped n = .ok (.ok c, n')) : Run request c none
  | answered {c c' : Resuming} {ended : Option Tracker} {stopped : Bool} {a : Next}
      (hrun : Run request c ended) (hturn : c.turn stopped = .ok (.answer a c'))
      (hopen : c'.client ≠ none) : Run request c' none
  | resumed {c c' : Resuming} {ended : Option Tracker} {stopped : Bool} (hrun : Run request c ended)
      (hturn : c.turn stopped = .ok (.again c')) : Run request c' none
  | failed {c c' : Resuming} {ended : Option Tracker} {stopped : Bool} {a : Next}
      (hrun : Run request c ended) (hturn : c.turn stopped = .ok (.answer a c'))
      (hgone : c'.client = none) : Run request c' (some (c.lastKnown ended))

theorem Turned.same_request {outcome : Turn Next Resuming} (h : Turned c outcome) :
    outcome.state.request = c.request := by
  have hround : ∀ {d outcome}, Round d outcome → outcome.state.request = d.request := by
    intro d outcome h
    cases h with
    | failed _ hrequest => exact hrequest
    | mended _ hrequest => exact hrequest
  cases h with
  | stopped =>
    rw [terminate]
    split <;> rfl
  | heard => rfl
  | sought hdown h =>
    rw [hround h]
    cases hdown with
    | gone => rfl
    | lost => rfl

theorem Turned.round {outcome : Turn Next Resuming} (h : Turned c outcome)
    (hagain : outcome = .again c') : ∃ d, Down c d ∧ Round d (.again c') := by
  cases h with
  | stopped => cases hagain
  | heard => cases hagain
  | sought hdown hround =>
    subst hagain
    exact ⟨_, hdown, hround⟩

theorem client_of_connect {settings : ClientSettings} {n n' : Network}
    (h : connect request settings stopped n = .ok (.ok c, n')) :
    c.request = request ∧ c.client ≠ none := by
  obtain ⟨⟨result, n''⟩, -, hresult⟩ := ok_of_map h
  cases result with
  | error fault => cases hresult
  | ok client =>
    obtain ⟨hclient, -⟩ := Prod.mk.inj hresult
    obtain rfl := Except.ok.inj hclient
    exact ⟨rfl, nofun⟩

/-- Along a run the request stays, and there is no connection exactly while the run remembers one
that has ended. -/
theorem Run.client_eq_none_iff {ended : Option Tracker} (h : Run request c ended) :
    c.request = request ∧ (c.client = none ↔ ended ≠ none) := by
  induction h with
  | connected hconnect =>
    obtain ⟨hrequest, hopen⟩ := client_of_connect hconnect
    exact ⟨hrequest, iff_of_false hopen (· rfl)⟩
  | answered _ hturn hopen ih =>
    exact ⟨(turned hturn).same_request.trans ih.1, iff_of_false hopen (· rfl)⟩
  | resumed _ hturn ih =>
    obtain ⟨d, -, hround⟩ := (turned hturn).round rfl
    refine ⟨(turned hturn).same_request.trans ih.1, iff_of_false ?_ (· rfl)⟩
    cases hround with
    | mended hclient =>
      rw [hclient]
      exact nofun
  | failed _ hturn hgone ih =>
    exact ⟨(turned hturn).same_request.trans ih.1, iff_of_true hgone nofun⟩

theorem Run.next {ended : Option Tracker} (h : Run request c ended) {a : Next}
    (hnext : c.next stopped = .ok (a, c')) : ∃ ended', Run request c' ended' := by
  obtain ⟨last, ⟨ended', hrun⟩, hturn⟩ := untilAnswer_invariant
    (P := fun c => ∃ ended, Run request c ended)
    (fun _ _ ⟨_, hrun⟩ hturn => ⟨none, .resumed hrun hturn⟩) ⟨ended, h⟩ hnext
  by_cases hgone : c'.client = none
  · exact ⟨_, .failed hrun hturn hgone⟩
  · exact ⟨none, .answered hrun hturn hgone⟩

/-- **What a reconnection keeps.** Along every run, when a round of attempts succeeds, each channel
subscribed to has exactly the state that it had when the connection was lost, if this is the first
round since then. If a round has failed since then, every channel is as at first. -/
theorem reconnect_keeps_channels {ended : Option Tracker} (hrun : Run request c ended)
    (hturn : c.turn stopped = .ok (.again c')) :
    ∃ new, c'.client = some new ∧ c'.reconnects = c.reconnects + 1 ∧
      (ended = none → ∃ s a s', c.client = some s ∧ s.next = .ok (a, s') ∧ Subscription.Loses a ∧
        ∀ key ∈ new.subscribed.keys, new.tracker.state? key = some (s'.tracker.stateOf key)) ∧
      (ended ≠ none → ∀ key ∈ new.subscribed.keys,
        new.tracker.state? key = some (.fresh request.effectiveCapacity key)) := by
  obtain ⟨hrequest, hnone⟩ := hrun.client_eq_none_iff
  obtain ⟨d, hdown, hround⟩ := (turned hturn).round rfl
  cases hround with
  | @mended _ new hclient _ hreconnects htracker =>
    have hstates : ∀ key ∈ new.subscribed.keys,
        new.tracker.state? key = some (d.release.1.stateOf key) := by
      intro key hkey
      rw [htracker]
      exact Tracker.state?_rebuild _ hkey
    cases hdown with
    | gone hgone =>
      refine ⟨new, hclient, hreconnects, fun h => absurd h (hnone.1 hgone), fun _ key hkey => ?_⟩
      have hrelease : c.release = (Subscription.newTracker request, c) := by
        rw [release, hgone, hrequest]
      rw [hstates key hkey, hrelease]
      rfl
    | @lost s s' a hopen hnext hloses =>
      have hended : ended = none := by
        by_contra h
        have hgone : c.client = none := hnone.2 h
        rw [hopen] at hgone
        cases hgone
      refine ⟨new, hclient, hreconnects, fun _ => ⟨s, a, s', hopen, hnext, hloses, hstates⟩,
        fun h => absurd hended h⟩

end Resuming

namespace Sample

open Resuming (Run)

def turned (c : Resuming) : Resuming :=
  match c.turn false with
  | .ok outcome => outcome.state
  | .error _ => c

def answers (c : Resuming) : Bool :=
  match c.turn false with
  | .ok (.answer ..) => true
  | _ => false

def goesOn (c : Resuming) : Bool :=
  match c.turn false with
  | .ok (.again _) => true
  | _ => false

theorem turn_of_answers {c : Resuming} (h : answers c = true) :
    ∃ a, c.turn false = .ok (.answer a (turned c)) := by
  rw [answers] at h
  rw [turned]
  split at h
  · next a c' hturn => exact ⟨a, by rw [hturn]; rfl⟩
  · cases h

theorem turn_of_goesOn {c : Resuming} (h : goesOn c = true) :
    c.turn false = .ok (.again (turned c)) := by
  rw [goesOn] at h
  rw [turned]
  split at h
  · next c' hturn => rw [hturn]; rfl
  · cases h

def connected (settings : ClientSettings) (leg : Leg)
    (coming : List (Except SessionFault Incoming)) : Resuming where
  request := bufferedRequest
  settings := settings
  network := ⟨"PFO", coming, []⟩
  client := some (pfoListing.opened settings (Subscription.newTracker bufferedRequest) leg)
  reconnects := 0

theorem run_connected (settings : ClientSettings) (leg : Leg)
    (coming : List (Except SessionFault Incoming)) :
    Run bufferedRequest (connected settings leg coming) none := by
  let n : Network := ⟨"PFO", .ok (pfoListing.incoming leg) :: coming, []⟩
  have hconnect : Resuming.connect bufferedRequest settings false n =
      .ok (.ok (connected settings leg coming), ⟨"PFO", coming, []⟩) := by
    rw [Resuming.connect, connect_leg (n := n) pfoListing settings rfl rfl]
    rfl
  exact .connected hconnect

def heard (c : Resuming) : Option (List (UInt32 × Bool)) :=
  c.client.map fun s => s.subscribed.keys.map fun key => (key, (s.tracker.stateOf key).significant)

theorem of_heard {c : Resuming} {new : Subscription} {key : UInt32} {significant : Bool}
    (h : heard c = some [(key, significant)]) (hclient : c.client = some new) :
    key ∈ new.subscribed.keys ∧ (new.tracker.stateOf key).significant = significant := by
  rw [heard, hclient] at h
  obtain ⟨k, ks, hkeys, hpair, -⟩ := List.map_eq_cons_iff.1 (Option.some.inj h)
  obtain ⟨rfl, rfl⟩ := Prod.mk.inj hpair
  exact ⟨hkeys ▸ List.mem_cons_self, rfl⟩

/-- The first connection of the rough journey is lost inside a packet, and the third attempt to
connect succeeds. -/
theorem reconnect_keeps_channels_in_one_round :
    ∃ c c' new s a s', Run bufferedRequest c none ∧ c.turn false = .ok (.again c') ∧
      c.client = some s ∧ s.next = .ok (a, s') ∧ Subscription.Loses a ∧ c'.client = some new ∧
      0x00030100 ∈ new.subscribed.keys ∧
      new.tracker.state? 0x00030100 = some (s'.tracker.stateOf 0x00030100) ∧
      (s'.tracker.stateOf 0x00030100).significant = true := by
  let c₀ := connected patientSettings roughJourney.leg (pfoListing.behind roughJourney)
  obtain ⟨_, hfirst⟩ := turn_of_answers (by decide +kernel : answers c₀ = true)
  have hrun : Run bufferedRequest (turned c₀) none :=
    .answered (run_connected _ _ _) hfirst (by decide +kernel)
  have hturn := turn_of_goesOn (by decide +kernel : goesOn (turned c₀) = true)
  obtain ⟨new, hclient, -, hkept, -⟩ := Resuming.reconnect_keeps_channels hrun hturn
  obtain ⟨s, a, s', hopen, hnext, hloses, hstates⟩ := hkept rfl
  have hheard : heard (turned (turned c₀)) = some [(0x00030100, true)] := by decide +kernel
  obtain ⟨hkey, hsignificant⟩ := of_heard hheard hclient
  have hstate := hstates _ hkey
  rw [Tracker.stateOf_of_state? hstate] at hsignificant
  exact ⟨_, _, new, s, a, s', hrun, hturn, hopen, hnext, hloses, hclient, hkey, hstate,
    hsignificant⟩

/-- One connection ends, the round of attempts behind it fails, and the next round succeeds: the
channel is as if it had never been heard of. -/
theorem channels_lost_with_failed_round :
    ∃ c t c' new, Run bufferedRequest c (some t) ∧ c.turn false = .ok (.again c') ∧
      c'.client = some new ∧ 0x00030100 ∈ new.subscribed.keys ∧
      new.tracker.state? 0x00030100 ≠ some (t.stateOf 0x00030100) := by
  let hasty : ClientSettings :=
    { ClientSettings.standard with backoff := { Time.Backoff.standard with maxAttempts := 1 } }
  let c₀ := connected hasty ⟨[packet 0 0], [], true⟩
    [.ok ⟨[], [], true⟩, .ok (pfoListing.incoming ⟨[packet 5 80], [], true⟩)]
  obtain ⟨_, hfirst⟩ := turn_of_answers (by decide +kernel : answers c₀ = true)
  have hrun : Run bufferedRequest (turned c₀) none :=
    .answered (run_connected _ _ _) hfirst (by decide +kernel)
  obtain ⟨_, hsecond⟩ := turn_of_answers (by decide +kernel : answers (turned c₀) = true)
  have hfailed : Run bufferedRequest (turned (turned c₀)) (some ((turned c₀).lastKnown none)) :=
    .failed hrun hsecond (by decide +kernel)
  have hturn := turn_of_goesOn (by decide +kernel : goesOn (turned (turned c₀)) = true)
  have hknown : (((turned c₀).lastKnown none).stateOf 0x00030100).significant = true := by
    decide +kernel
  have hheard : heard (turned (turned (turned c₀))) = some [(0x00030100, false)] := by
    decide +kernel
  obtain ⟨new, hclient⟩ : ∃ new, (turned (turned (turned c₀))).client = some new :=
    Option.isSome_iff_exists.1 (by decide +kernel)
  obtain ⟨hkey, hsignificant⟩ := of_heard hheard hclient
  refine ⟨_, _, _, new, hfailed, hturn, hclient, hkey, fun hstate => ?_⟩
  rw [Tracker.stateOf_of_state? hstate, hknown] at hsignificant
  cases hsignificant

end Sample

end SeisFeed.Session
