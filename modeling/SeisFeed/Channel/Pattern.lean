import SeisFeed.Message.Fault
import SeisFeed.Text.Blank
import SeisFeed.Text.Caseless
import SeisFeed.Text.Utf8
import SeisFeed.Wire.Word
/-!
# Channel patterns

A pattern `NET.STA.CHAN`, or `STA.CHAN` in the default network, selects channels by name. The
station `*` stands for every station, and a `?` in the channel for any one byte of its UTF-8 form.
Letters match whatever their case.
-/

namespace SeisFeed

open Wire (Bytes)

/-- The station and the channel in a name: what precedes the first `.` and what follows it. -/
def splitName (name : String) : String × String :=
  let cs := name.toList
  (String.ofList (cs.takeWhile (· ≠ '.')), String.ofList ((cs.dropWhile (· ≠ '.')).drop 1))

/-- What a pattern demands of one byte of a channel. -/
inductive Slot where
  | any
  | byte (b : UInt8)
  deriving DecidableEq, Repr

namespace Slot

def wildcard : UInt8 := 0x3F

def ofByte (b : UInt8) : Slot :=
  if b = wildcard then .any else .byte b

def accepts : Slot → UInt8 → Bool
  | any, _ => true
  | byte b, c => Text.sameByteCaseless b c

/-- Whether the bytes of a channel fill the slots one by one. -/
def acceptAll : List Slot → Bytes → Bool
  | [], [] => true
  | slot :: slots, b :: bs => slot.accepts b && acceptAll slots bs
  | _, _ => false

end Slot

/-- A selector of channels. Without a station it selects from every station. -/
structure Pattern where
  network : String
  station : Option String
  channel : List Slot
  deriving DecidableEq, Repr

namespace Pattern

/-- The pattern of the given parts, none of which may be empty. -/
def ofParts? (network station channel : List Char) : Option Pattern :=
  if network = [] ∨ station = [] ∨ channel = [] then none
  else some {
    network := String.ofList network
    station := if station = ['*'] then none else some (String.ofList station)
    channel := (Text.Utf8.encode (String.ofList channel)).map Slot.ofByte }

/-- The pattern that a text spells, apart from its blank margins. -/
def parse? (text : List Char) (defaultNetwork : String) : Option Pattern :=
  match (Text.trimChars text).splitOn '.' with
  | [station, channel] => ofParts? defaultNetwork.toList station channel
  | [network, station, channel] => ofParts? network station channel
  | _ => none

/-- The pattern that a text spells; a text that spells none is reported as it was given. -/
def parse (text defaultNetwork : String) : Except ProtocolFault Pattern :=
  match parse? text.toList defaultNetwork with
  | none => .error (.invalidPattern text)
  | some pattern => .ok pattern

/-- The patterns of a comma-separated list. A blank list, or an item that is no pattern, is
refused. -/
def parseList (text defaultNetwork : String) : Except ProtocolFault (List Pattern) :=
  if Text.trimChars text.toList = [] then .error (.invalidPattern text)
  else (text.toList.splitOn ',').mapM fun item => parse (String.ofList item) defaultNetwork

def matchesName (p : Pattern) (name : String) : Bool :=
  let (station, channel) := splitName name
  p.station.all (Text.sameCaseless · station) &&
    Slot.acceptAll p.channel (Text.Utf8.encode channel)

end Pattern

end SeisFeed
