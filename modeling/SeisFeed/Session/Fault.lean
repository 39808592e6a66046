import SeisFeed.Message.Fault
import SeisFeed.Time.Duration
import SeisFeed.Waveform.Packet
/-!
# Session faults

What can go wrong between a client and a server. Some faults leave the connection unusable; those
are the ones that a new connection may mend.
-/

namespace SeisFeed.Session

open Time (Duration)

/-- Why an operation of a client failed. -/
inductive SessionFault where
  | io (reason : String)
  | protocol (fault : ProtocolFault)
  | packet (fault : Waveform.PacketFault)
  /-- The server stopped sending in the middle of a transfer. -/
  | shortTransfer (expected actual : Nat)
  | connect (address reason : String)
  | timeout (after : Duration)
  /-- The server stopped sending between two transfers. -/
  | disconnected
  | server (reason : String)
  | invalidState (expected actual : String)
  /-- The request cannot be met, whatever the server does. -/
  | config (reason : String)
  | stopped
  | reconnectFailed (attempts : Nat)
  deriving DecidableEq, Repr

namespace SessionFault

/-- The name of a session fault's cause; that of a fault in a message or packet follows the name of
its layer. -/
def name : SessionFault → String
  | io _ => "Io"
  | protocol fault => s!"Protocol.{fault.name}"
  | packet fault => s!"Decode.{fault.name}"
  | shortTransfer .. => "ShortTransfer"
  | connect .. => "Connect"
  | timeout _ => "Timeout"
  | disconnected => "Disconnected"
  | server _ => "ServerError"
  | invalidState .. => "InvalidState"
  | config _ => "Config"
  | stopped => "Stopped"
  | reconnectFailed _ => "ReconnectFailed"

def message : SessionFault → String
  | io reason => s!"I/O error: {reason}"
  | protocol fault => s!"protocol error: {fault.message}"
  | packet fault => s!"decode error: {fault.message}"
  | shortTransfer expected actual => s!"short transfer: expected {expected} bytes, got {actual}"
  | connect address reason => s!"connect to {address} failed: {reason}"
  | timeout after => s!"timeout after {after.text}"
  | disconnected => "disconnected"
  | server reason => s!"server error: {reason}"
  | invalidState expected actual => s!"invalid state: expected {expected}, actual {actual}"
  | config reason => s!"invalid configuration: {reason}"
  | stopped => "stopped"
  | reconnectFailed attempts => s!"reconnect failed after {attempts} attempts"

/-- Whether the connection that a fault comes from is unusable. -/
def isConnectionFatal : SessionFault → Bool
  | io _ | shortTransfer .. | connect .. | timeout _ | disconnected => true
  | protocol (.signatureMismatch ..) | protocol (.frameTooShort ..)
  | protocol (.messageTooLarge ..) | protocol (.unexpectedMessage ..) => true
  | _ => false

end SessionFault

end SeisFeed.Session
