import SeisFeed.Channel.Pattern
import SeisFeed.Request
import SeisFeed.Session.Fault
import SeisFeed.Time.Backoff
import SeisFeed.Time.Window
/-!
# Settings

What a client is asked to do, and the checks that a request must pass before a connection is opened.
The first check that fails is reported.
-/

namespace SeisFeed.Session

open Time (Backoff Duration Window)

def defaultNetwork : String := "XX"

/-- The longest wait for missing packets that a server accepts, in seconds. -/
def maxCompletionWait : Nat := 300

/-- How a client connects and waits. -/
structure ClientSettings where
  connectTimeout : Duration
  readTimeout : Duration
  backoff : Backoff
  deriving Repr

/-- Ten seconds to connect, a minute to read, and the standard backoff. -/
def ClientSettings.standard : ClientSettings where
  connectTimeout := .ofSeconds 10
  readTimeout := .ofSeconds 60
  backoff := .standard

def checkPatterns (patterns network : String) : Except SessionFault Unit :=
  if network = "" then .error (.config "default network is empty")
  else
    match Pattern.parseList patterns network with
    | .error fault => .error (.config fault.message)
    | .ok _ => .ok ()

def refuseIf (bad : Prop) [Decidable bad] (reason : String) : Except SessionFault Unit :=
  if bad then .error (.config reason) else .ok ()

/-! ### Subscriptions -/

/-- How a server delivers a subscription. -/
inductive Completion where
  /-- Compressed packets as they come, perhaps out of order. -/
  | raw
  /-- Decompressed packets, without waiting for missing ones. -/
  | noWait
  /-- Decompressed packets, waiting some seconds for missing ones. -/
  | wait (seconds : Nat)
  deriving DecidableEq, Repr

/-- The number that stands for a completion in a subscription. -/
def Completion.code : Completion → Int32
  | raw => -1
  | noWait => 0
  | wait seconds => Int32.ofNat seconds

structure StreamRequest where
  patterns : String
  network : String
  completion : Completion
  /-- The sample rate to deliver, or `nativeRate`. -/
  outFormat : Int32
  /-- Whether to begin with the data that the server has kept. -/
  buffered : Bool
  /-- How often to tell the server that the client is still there. -/
  pendingInterval : Option Duration
  /-- How many packets of a channel may wait behind a missing one. -/
  reorderCapacity : Option Nat
  deriving DecidableEq, Repr

namespace StreamRequest

/-- Raw packets of the channels that patterns select, as they come. -/
def ofPatterns (patterns : String) : StreamRequest where
  patterns := patterns
  network := defaultNetwork
  completion := .raw
  outFormat := nativeRate
  buffered := false
  pendingInterval := none
  reorderCapacity := none

def checkCompletion : Completion → Except SessionFault Unit
  | .raw | .noWait => .ok ()
  | .wait seconds =>
    refuseIf (seconds < 1 ∨ maxCompletionWait < seconds)
      s!"completion wait must be 1..={maxCompletionWait} seconds, got {seconds}"

def validate (r : StreamRequest) : Except SessionFault Unit := do
  checkPatterns r.patterns r.network
  checkCompletion r.completion
  refuseIf (r.outFormat ≠ nativeRate ∧ r.outFormat ≤ 0)
    s!"output rate must be positive or {nativeRate.toInt}, got {r.outFormat.toInt}"
  refuseIf (r.pendingInterval = some .zero) "request pending interval must be non-zero"
  refuseIf (r.reorderCapacity = some 0) "raw reorder capacity must be non-zero"

/-- The capacity of the reorder buffers; only raw packets come out of order. -/
def effectiveCapacity (r : StreamRequest) : Option Nat :=
  match r.completion with
  | .raw => r.reorderCapacity
  | .noWait | .wait _ => none

end StreamRequest

/-! ### Retrievals -/

/-- A login. Both texts empty log in as nobody. -/
structure Credentials where
  username : String
  password : String
  deriving DecidableEq, Repr

def Credentials.anonymous : Credentials := ⟨"", ""⟩

def Credentials.validate (c : Credentials) : Except SessionFault Unit :=
  let length := (Text.Utf8.encode c.username).length
  refuseIf (usernameLength ≤ length)
    s!"username must be at most {usernameLength - 1} bytes, got {length}"

/-- What a client retrieves from an archive. -/
structure ArchiveRequest where
  patterns : String
  network : String
  credentials : Credentials
  window : Window
  /-- Retrieves one window if absent; otherwise one window after the other without end, each when
  its end is this long ago. -/
  delay : Option Duration
  deriving DecidableEq, Repr

namespace ArchiveRequest

def ofPatterns (patterns : String) (window : Window) : ArchiveRequest where
  patterns := patterns
  network := defaultNetwork
  credentials := .anonymous
  window := window
  delay := none

def validate (r : ArchiveRequest) : Except SessionFault Unit := do
  checkPatterns r.patterns r.network
  r.credentials.validate
  refuseIf (r.window.stop ≤ r.window.start)
    s!"time window end {r.window.stop.toInt} is not after start {r.window.start.toInt}"

end ArchiveRequest

end SeisFeed.Session
