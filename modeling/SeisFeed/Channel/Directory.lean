import SeisFeed.Channel.Key
import SeisFeed.Channel.Pattern
import SeisFeed.Message.Fault
import SeisFeed.Text.Caseless
import SeisFeed.Wire.Field
/-!
# Directories

The channels a server knows, in the order it lists them. A key occurs once: later entries that
repeat it are dropped when a directory is made, and no operation brings one back, so every look-up
by key has at most one answer.
-/

namespace SeisFeed

open Wire (Bytes Read Field)

def nameLength : Nat := 12

def channelEntryLength : Nat := 16

/-- A channel of a server. The network is not on the wire; selecting a channel by a pattern sets
it. -/
structure Channel where
  key : UInt32
  name : String
  network : Option String
  deriving DecidableEq, Repr

namespace Channel

def station (c : Channel) : String :=
  (splitName c.name).1

def component (c : Channel) : String :=
  (splitName c.name).2

def dataType (c : Channel) : UInt8 :=
  keyDataType c.key

def fields (c : Channel) : List Field :=
  [.word32 c.key, .text c.name nameLength]

def read : Read Channel := do
  let key ← Read.word32
  let name ← Read.text nameLength
  return ⟨key, name, none⟩

end Channel

/-- The channels whose key no earlier one has, and whose key is not among `seen`. -/
def firstPerKey (seen : List UInt32) : List Channel → List Channel
  | [] => []
  | c :: cs =>
    if c.key ∈ seen then firstPerKey seen cs else c :: firstPerKey (c.key :: seen) cs

theorem key_notMem_of_mem_firstPerKey {seen : List UInt32} {cs : List Channel} {c : Channel}
    (h : c ∈ firstPerKey seen cs) : c.key ∉ seen := by
  induction cs generalizing seen with
  | nil => simp [firstPerKey] at h
  | cons d ds ih =>
    rw [firstPerKey] at h
    split at h
    · exact ih h
    · next hd =>
      rcases List.mem_cons.1 h with rfl | h
      · exact hd
      · exact fun hc => ih h (List.mem_cons_of_mem _ hc)

theorem nodup_firstPerKey (seen : List UInt32) (cs : List Channel) :
    ((firstPerKey seen cs).map Channel.key).Nodup := by
  induction cs generalizing seen with
  | nil => exact .nil
  | cons d ds ih =>
    rw [firstPerKey]
    split
    · exact ih seen
    · rw [List.map_cons, List.nodup_cons]
      refine ⟨fun h => ?_, ih _⟩
      obtain ⟨c, hc, hk⟩ := List.mem_map.1 h
      exact key_notMem_of_mem_firstPerKey hc (hk ▸ List.mem_cons_self)

/-- Channels in order, each key once. -/
structure Directory where
  channels : List Channel
  distinct : (channels.map Channel.key).Nodup

namespace Directory

def empty : Directory :=
  ⟨[], .nil⟩

/-- The directory of the channels in a list; of those that share a key it keeps the first. -/
def ofList (cs : List Channel) : Directory :=
  ⟨firstPerKey [] cs, nodup_firstPerKey [] cs⟩

def readEntries (count : Nat) : Read (List Channel) :=
  Read.many Channel.read count

/-- The directory in the body of a channel list. Bytes after the last entry are ignored. -/
def parse (body : Bytes) : Except ProtocolFault Directory :=
  match Read.word32 (Wire.Cursor.start body) with
  | (none, _) => .error (.invalidChannelList "missing count")
  | (some count, c) =>
    match (readEntries count.toNat c).1 with
    | none => .error (.invalidChannelList
        s!"{count} entries need {count.toNat * channelEntryLength} bytes, body has {c.remaining}")
    | some entries => .ok (ofList entries)

/-- The body of the channel list that announces a directory. -/
def toBody (d : Directory) : Bytes :=
  Field.encodeAll (.word32 (UInt32.ofNat d.channels.length) :: d.channels.flatMap Channel.fields)

def keys (d : Directory) : List UInt32 :=
  d.channels.map Channel.key

def get? (d : Directory) (key : UInt32) : Option Channel :=
  d.channels.find? fun c => c.key == key

def position? (d : Directory) (key : UInt32) : Option Nat :=
  d.channels.findIdx? fun c => c.key == key

/-- The key of the first channel of a name, whatever the case of its letters. -/
def lookupKey (d : Directory) (name : String) : Option UInt32 :=
  (d.channels.find? fun c => Text.sameCaseless c.name name).map Channel.key

def lookupName (d : Directory) (key : UInt32) : Option String :=
  (d.get? key).map Channel.name

def filterByType (d : Directory) (code : UInt8) : Directory where
  channels := d.channels.filter fun c => c.dataType == code
  distinct := d.distinct.sublist (List.filter_sublist.map _)

/-- A channel as the patterns select it: in the network of the first that matches its name. -/
def selected? (patterns : List Pattern) (c : Channel) : Option Channel :=
  (patterns.find? fun p => p.matchesName c.name).map fun p => { c with network := some p.network }

theorem map_key_filterMap_selected? (patterns : List Pattern) (cs : List Channel) :
    (cs.filterMap (selected? patterns)).map Channel.key =
      (cs.filter fun c => (selected? patterns c).isSome).map Channel.key := by
  induction cs with
  | nil => rfl
  | cons c cs ih =>
    cases h : patterns.find? fun p => p.matchesName c.name <;> simp [selected?, h] at ih ⊢ <;>
      exact ih

def selectBy (d : Directory) (patterns : List Pattern) : Directory where
  channels := d.channels.filterMap (selected? patterns)
  distinct := map_key_filterMap_selected? patterns d.channels ▸
    d.distinct.sublist (List.filter_sublist.map _)

/-- The channels that a comma-separated list of patterns selects, in order. -/
def subset (d : Directory) (patterns defaultNetwork : String) : Except ProtocolFault Directory :=
  (Pattern.parseList patterns defaultNetwork).map d.selectBy

end Directory

end SeisFeed
