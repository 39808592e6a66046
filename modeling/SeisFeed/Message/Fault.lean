import SeisFeed.Message.Kind
import SeisFeed.Text.Hex
import SeisFeed.Text.Quoted
/-!
# Protocol faults

What can be wrong with a message as a message: its frame, its kind, or a list or text in it. Each
cause has one text.
-/

namespace SeisFeed

/-- Why a message, or a text that is to go into one, is refused. -/
inductive ProtocolFault where
  | signatureMismatch (expected actual : UInt32)
  | frameTooShort (expected actual : Nat)
  | unexpectedMessage (expected : MessageKind) (actual : UInt32)
  | invalidChannelList (reason : String)
  | invalidPrecisList (reason : String)
  | invalidPattern (pattern : String)
  | messageTooLarge (length max : UInt32)
  | usernameTooLong (length : Nat)
  deriving DecidableEq, Repr

def ProtocolFault.name : ProtocolFault → String
  | signatureMismatch .. => "SignatureMismatch"
  | frameTooShort .. => "FrameTooShort"
  | unexpectedMessage .. => "UnexpectedMessage"
  | invalidChannelList _ => "InvalidChannelList"
  | invalidPrecisList _ => "InvalidPrecisList"
  | invalidPattern _ => "InvalidPattern"
  | messageTooLarge .. => "MessageTooLarge"
  | usernameTooLong _ => "UsernameTooLong"

def ProtocolFault.message : ProtocolFault → String
  | signatureMismatch expected actual =>
    s!"signature mismatch: expected {Text.hexWord expected}, actual {Text.hexWord actual}"
  | frameTooShort expected actual => s!"frame too short: expected {expected}, actual {actual}"
  | unexpectedMessage expected actual =>
    s!"unexpected message: expected {expected.name}, actual type {actual}"
  | invalidChannelList reason => s!"invalid channel list: {reason}"
  | invalidPrecisList reason => s!"invalid precis list: {reason}"
  | invalidPattern pattern => s!"invalid channel pattern: {Text.quoted pattern}"
  | messageTooLarge length max => s!"message too large: {length} bytes (max {max})"
  | usernameTooLong length => s!"username too long: {length} bytes (max 11)"

end SeisFeed
