import SeisFeed.Session.Link
import SeisFeed.Session.Retry
import SeisFeed.Session.Settings
/-!
# Networks

A network is what the coming attempts to connect lead to, one after the other, and what clients have
sent on the connections that are over. An attempt leads to a server or to a fault; when nothing is
left, connecting is refused.
-/

namespace SeisFeed.Session

open Time (Backoff Duration StopSignal)
open Wire (Bytes)

/-- The attempts to connect that are still to come, and the connections that are over. -/
structure Network where
  address : String
  /-- What each attempt leads to: a server, with what it sends, or a fault. -/
  coming : List (Except SessionFault Incoming)
  /-- What was sent on each connection that is over, transfer by transfer. -/
  transcripts : List (List Bytes)

namespace Network

/-- The network of servers that accept one connection each, in order. -/
def ofServers (address : String) (servers : List Incoming) : Network :=
  ⟨address, servers.map .ok, []⟩

def connect (readTimeout : Duration) (n : Network) : Except SessionFault Link × Network :=
  match n.coming with
  | [] => (.error (.connect n.address "connection refused"), n)
  | .error fault :: coming => (.error fault, { n with coming := coming })
  | .ok incoming :: coming =>
    (.ok (Link.opened incoming readTimeout), { n with coming := coming })

def drop (n : Network) (link : Link) : Network :=
  { n with transcripts := n.transcripts ++ [link.sent] }

/-- What was sent on each connection, the one still open last. -/
def sent (n : Network) (current : Option Link) : List (List Bytes) :=
  (n.transcripts ++ (current.map (·.sent)).toList).map Link.condense

def sizeOfAttempt : Except SessionFault Incoming → Nat
  | .error _ => 0
  | .ok incoming => incoming.size

/-- The bytes that servers have still to send, with one more for each attempt to connect. -/
def size (n : Network) : Nat :=
  n.coming.foldr (fun attempt total => sizeOfAttempt attempt + 1 + total) 0

/-- How often to attempt something that needs a connection: often enough to come to the last that is
to come and to the last attempt allowed, after which nothing would change. -/
def attempts (n : Network) (backoff : Backoff) : Nat :=
  n.coming.length + backoff.maxAttempts.toNat + 1

/-- The policy of retrying with a signal that has fired or never will. -/
def policy (backoff : Backoff) (stopped : Bool) : RetryPolicy where
  backoff := backoff
  clock := .exact
  stop := if stopped then ⟨some 0⟩ else .never

/-- Opens a connection, attempting it again as the settings say. -/
def connectWithRetry (settings : ClientSettings) (stopped : Bool) (n : Network) :
    Except Halt (Except SessionFault Link × Network) :=
  let op (_ : Nat) (n : Network) :=
    let (result, n) := n.connect settings.readTimeout
    (⟨.zero, result⟩, n)
  ((policy settings.backoff stopped).retry (n.attempts settings.backoff) op n).map fun run =>
    (run.result, run.world)

end Network

end SeisFeed.Session
