import SeisFeed.Session.Subscription
/-!
# Resuming subscriptions

A resuming client subscribes again whenever its connection is lost or the server ends the stream.
The new subscription goes on with what is known of the channels, so that its first records are
compared with the last ones before. Faults that a new connection would not mend are passed on.
-/

namespace SeisFeed.Session

open Delivery (Pipeline Tracker)

/-- A client that subscribes again by itself. -/
structure Resuming where
  request : StreamRequest
  settings : ClientSettings
  network : Network
  client : Option Subscription
  /-- How often it has subscribed again, counted in 32 bits. -/
  reconnects : Nat

namespace Resuming

def connect (request : StreamRequest) (settings : ClientSettings) (stopped : Bool) (n : Network) :
    Except Halt (Except SessionFault Resuming × Network) :=
  (Subscription.connect request settings stopped n).map fun (result, n) =>
    (result.map fun client => ⟨request, settings, n, some client, 0⟩, n)

/-- What bounds the reading: what its servers have still to send. -/
def size (c : Resuming) : Nat :=
  c.network.size + (c.client.map Subscription.size).getD 0

def terminate (reason : ShutdownReason) (text : String) (c : Resuming) :
    Except SessionFault Unit × Resuming :=
  match c.client with
  | none => (.ok (), c)
  | some client =>
    let (result, client) := client.terminate reason text
    (result, { c with client := some client })

/-- One attempt to connect and to subscribe, going on with a tracker. -/
def attempt (request : StreamRequest) (settings : ClientSettings) (tracker : Tracker)
    (n : Network) : Except SessionFault Subscription × Network :=
  match n.connect settings.readTimeout with
  | (.error fault, n) => (.error fault, n)
  | (.ok link, n) =>
    match Subscription.openOn request tracker link with
    | .error (fault, link) => (.error fault, n.drop link)
    | .ok client => (.ok client, n)

/-- Gives up the connection. Answers with what was known of the channels. -/
def release (c : Resuming) : Tracker × Resuming :=
  match c.client with
  | none => (Subscription.newTracker c.request, c)
  | some client =>
    (client.tracker, { c with network := c.network.drop client.link, client := none })

/-- Gives up the connection and subscribes again. When that fails, what was known of the channels is
lost. -/
def reconnect (stopped : Bool) (c : Resuming) : Except Halt (Except SessionFault Unit × Resuming) :=
  let (tracker, c) := c.release
  let op (_ : Nat) (n : Network) :=
    let (result, n) := attempt c.request c.settings tracker n
    (⟨.zero, result⟩, n)
  ((Network.policy c.settings.backoff stopped).retry (c.network.attempts c.settings.backoff) op
    c.network).bind fun run =>
      match run.result with
      | .error fault => .ok (.error fault, { c with network := run.world })
      | .ok client =>
        match countOn? c.reconnects with
        | none => .error .undefined
        | some reconnects =>
          .ok (.ok (), {
            c with
            network := run.world
            client := some client
            reconnects := reconnects })

/-- Subscribes again and goes on reading, unless that fails. -/
def resume (stopped : Bool) (c : Resuming) : Except Halt (Turn Next Resuming) :=
  (c.reconnect stopped).map fun (result, c) =>
    match result with
    | .ok () => .again c
    | .error .stopped => .answer (.ok none) c
    | .error fault => .answer (.error fault) c

def turn (stopped : Bool) (c : Resuming) : Except Halt (Turn Next Resuming) :=
  if stopped then .ok (.answer (.ok none) (c.terminate .normal "stopped").2)
  else
    match c.client with
    | none => c.resume stopped
    | some client =>
      match client.next with
      | .error halt => .error halt
      | .ok (answer, client) =>
        let c := { c with client := some client }
        match answer with
        | .ok (some r) => .ok (.answer (.ok (some r)) c)
        | .ok none => c.resume stopped
        | .error fault =>
          if fault.isConnectionFatal then c.resume stopped else .ok (.answer (.error fault) c)

/-- Reads the next record; there is none once reading is stopped. -/
def next (stopped : Bool) (c : Resuming) : Except Halt (Next × Resuming) :=
  untilAnswer size (turn stopped) c

def drain (stopped : Bool) (c : Resuming) : Except Halt (Remainder × Resuming) :=
  collect size (next stopped) c

/-- Whether a fault only ends a stream of records and is not shown in it: that no connection can be
had ends it as if there were no more records. -/
def endsQuietly : SessionFault → Bool
  | .reconnectFailed _ => true
  | _ => false

/-! ### Feeding a pipeline -/

variable {σ : Type}

def feedTurn (pipeline : Pipeline σ) (isStopped : σ → Bool) (f : Feed Resuming σ) :
    Except Halt (Turn (Except SessionFault Unit) (Feed Resuming σ)) :=
  f.turn pipeline (next (isStopped f.world))

/-- Feeds records to a pipeline until the world wants it stopped. Answers how many were fed. -/
def run (pipeline : Pipeline σ) (isStopped : σ → Bool) (c : Resuming) (world : σ) :
    Except Halt (Except SessionFault Nat × Feed Resuming σ) :=
  (untilAnswer (fun f => f.source.size) (feedTurn pipeline isStopped) (.start c world)).map
    fun (result, f) => (f.total result, f)

end Resuming

end SeisFeed.Session
