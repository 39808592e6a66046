import SeisFeed.Channel.Directory
import SeisFeed.Delivery.Reorder
/-!
# Continuity

For each channel of a subscription it is known where its last record ended. A record that starts
later than that, by more than a tolerance, leaves a gap; one that starts earlier overlaps. A
compressed record must also start with the value that the one before it left over. The counts of
what was found, and the channel's reorder buffer, are kept with it.
-/

namespace SeisFeed.Delivery

open Waveform (Record)

/-- The seconds by which two times may differ and still count as one. -/
def gapTolerance : Float := 0.001

/-- How a record follows the one before it in its channel. -/
inductive Continuity where
  /-- No record with samples came before it. -/
  | first
  | contiguous
  | gap (seconds : Float)
  | overlap (seconds : Float)
  /-- The record has no samples, and nothing is compared. -/
  | empty
  deriving Repr

structure ChannelState where
  key : UInt32
  /-- Whether a record with samples has come. -/
  significant : Bool
  lastEndTime : Float
  /-- The value that the next compressed record has to start with. -/
  previousLastSample : Option Int32
  buffer : Option (ReorderBuffer Record)
  gaps : Nat
  overlaps : Nat
  x0Mismatches : Nat
  deriving Repr

namespace ChannelState

def fresh (reorderCapacity : Option Nat) (key : UInt32) : ChannelState where
  key := key
  significant := false
  lastEndTime := 0.0
  previousLastSample := none
  buffer := reorderCapacity.map ReorderBuffer.new
  gaps := 0
  overlaps := 0
  x0Mismatches := 0

/-- Whether a record does not start with the value that the one before it left over. -/
def x0Mismatch (s : ChannelState) (r : Record) : Bool :=
  match r.x0, s.previousLastSample with
  | some x0, some previous => x0 != previous
  | _, _ => false

def compare (s : ChannelState) (tolerance : Float) (r : Record) : Continuity :=
  let difference := r.time - s.lastEndTime
  if !s.significant then .first
  else if tolerance < difference then .gap difference
  else if difference < -tolerance then .overlap (-difference)
  else .contiguous

def count (s : ChannelState) (r : Record) : Continuity → ChannelState
  | .gap _ => { s with gaps := s.gaps + 1 }
  | .overlap _ => { s with overlaps := s.overlaps + 1 }
  | .contiguous =>
    if s.x0Mismatch r then { s with x0Mismatches := s.x0Mismatches + 1 } else s
  | .first | .empty => s

def advance (s : ChannelState) (r : Record) : ChannelState :=
  { s with
    significant := true
    lastEndTime := r.endTime
    previousLastSample := r.lastValue.or r.samples.getLast? }

/-- Compares a record with the one before it and moves to its end. -/
def observe (s : ChannelState) (tolerance : Float) (r : Record) : Continuity × ChannelState :=
  if r.samples = [] then (.empty, s)
  else
    let found := s.compare tolerance r
    (found, (s.count r found).advance r)

/-- Passes a record through the reorder buffer, if there is one. -/
def reorder (s : ChannelState) (r : Record) : List Record × ChannelState :=
  match s.buffer with
  | none => ([r], s)
  | some buffer =>
    let (released, buffer) := buffer.pushRecord r
    (released, { s with buffer := some buffer })

def waiting (s : ChannelState) : List Record :=
  (s.buffer.map fun buffer => buffer.flush.1).getD []

def drained (s : ChannelState) : ChannelState :=
  { s with buffer := s.buffer.map fun buffer => buffer.flush.2 }

end ChannelState

/-- What is known of every channel of a subscription, in the order of its directory. -/
structure Tracker where
  channels : List ChannelState
  tolerance : Float
  reorderCapacity : Option Nat
  deriving Repr

namespace Tracker

/-- What is known of the channels of a directory before their first records. -/
def new (directory : Directory) (reorderCapacity : Option Nat) : Tracker where
  channels := directory.keys.map (ChannelState.fresh reorderCapacity)
  tolerance := gapTolerance
  reorderCapacity := reorderCapacity

def withTolerance (t : Tracker) (tolerance : Float) : Tracker :=
  { t with tolerance := tolerance }

def state? (t : Tracker) (key : UInt32) : Option ChannelState :=
  t.channels.find? fun s => s.key == key

/-- What is known of the channel that has a key, or what is known of any channel at first. -/
def stateOf (t : Tracker) (key : UInt32) : ChannelState :=
  (t.state? key).getD (ChannelState.fresh t.reorderCapacity key)

/-- Puts a channel's state in place of its old one, or behind all others. -/
def putState (s : ChannelState) : List ChannelState → List ChannelState
  | [] => [s]
  | c :: cs => if c.key = s.key then s :: cs else c :: putState s cs

def put (t : Tracker) (s : ChannelState) : Tracker :=
  { t with channels := putState s t.channels }

/-- Follows another directory. Channels that were followed before keep their state. -/
def rebuild (t : Tracker) (directory : Directory) : Tracker :=
  { t with channels := directory.keys.map t.stateOf }

/-- Passes a record through the reorder buffer of its channel. A record of a channel that is not
followed passes at once. -/
def reorder (t : Tracker) (r : Record) : List Record × Tracker :=
  match t.state? r.key with
  | none => ([r], t)
  | some s =>
    let (released, s) := s.reorder r
    (released, t.put s)

def flush (t : Tracker) : List Record × Tracker :=
  (t.channels.flatMap ChannelState.waiting,
    { t with channels := t.channels.map ChannelState.drained })

/-- Compares a record with the one before it in its channel and moves to its end. A channel that is
not followed yet is from now on. -/
def observe (t : Tracker) (r : Record) : Continuity × Tracker :=
  let (found, s) := (t.stateOf r.key).observe t.tolerance r
  (found, t.put s)

/-- Whether a record does not start with the value that the one before it in its channel left
over. -/
def x0Mismatch (t : Tracker) (r : Record) : Bool :=
  (t.state? r.key).any fun s => s.x0Mismatch r

def observeAll (t : Tracker) (rs : List Record) : Tracker :=
  rs.foldl (fun t r => (t.observe r).2) t

def waitingCount (t : Tracker) : Nat :=
  (t.channels.flatMap ChannelState.waiting).length

end Tracker

end SeisFeed.Delivery
