import SeisFeed.Wire.Word
/-!
# Records

A record is a run of samples of one channel with the time of the first and their rate. A record from
a compressed packet also carries its first sample and the value that the next packet of its channel
starts with, so that the seam between packets can be checked.
-/

namespace SeisFeed.Waveform

structure Record where
  key : UInt32
  network : Option String
  station : String
  channel : String
  packetType : Int32
  /-- The first sample of a compressed packet. -/
  x0 : Option Int32
  /-- The first sample of the next compressed packet. -/
  lastValue : Option Int32
  sequence : Option Int32
  /-- The oldest sequence number that the sender still holds. -/
  oldestSequence : Option Int32
  /-- The time of the first sample, in seconds since 1970. -/
  time : Float
  samples : List Int32
  /-- Samples per second. -/
  sampleRate : Int32
  /-- The length of the message body that the record came in. -/
  rawLength : Nat
  deriving Repr

namespace Record

def blank : Record where
  key := 0
  network := none
  station := ""
  channel := ""
  packetType := 0
  x0 := none
  lastValue := none
  sequence := none
  oldestSequence := none
  time := 0.0
  samples := []
  sampleRate := 0
  rawLength := 0

instance : Inhabited Record := ⟨blank⟩

def name (r : Record) : String :=
  s!"{r.station}.{r.channel}"

def rate (r : Record) : Float :=
  Float.ofInt r.sampleRate.toInt

/-- The time just after the last sample. Without a rate it is the record's time. -/
def endTime (r : Record) : Float :=
  if 0 < r.sampleRate then r.time + Float.ofNat r.samples.length / r.rate else r.time

/-! ### Cutting a record to a window of time -/

/-- How far a sample may lie before a bound and still count as after it, in samples. Times of this
century carry about a ten-millionth of a second of rounding. -/
def slack : Float := 0.001

/-- How many samples lie before a time: the number of places below the time's distance from the
first sample. -/
def samplesBefore (r : Record) (t : Float) : Nat :=
  let distance := (t - r.time) * r.rate - slack
  ((List.range r.samples.length).takeWhile fun place => Float.ofNat place < distance).length

theorem samplesBefore_le (r : Record) (t : Float) : r.samplesBefore t ≤ r.samples.length := by
  have h := (List.takeWhile_prefix (l := List.range r.samples.length)
    fun place => decide (Float.ofNat place < (t - r.time) * r.rate - slack)).length_le
  simpa [samplesBefore] using h

def emptied (r : Record) : Record :=
  { r with samples := [] }

/-- The record from the sample at place `first` up to but not including that at place `last`. Its
time and first value move to the first sample it keeps; when samples are cut off at the end, the
value that follows is the first of those. -/
def slice (r : Record) (first last : Nat) : Record :=
  let kept := (r.samples.take last).drop first
  { r with
    time := r.time + Float.ofNat first / r.rate
    samples := kept
    x0 := r.x0.bind fun _ => kept.head?
    lastValue := match r.samples[last]? with
      | none => r.lastValue
      | some next => r.lastValue.map fun _ => next }

/-- The record with only the samples from `start` on and before `stop`. When none are left, nothing
else changes. -/
def trim (r : Record) (start stop : Float) : Record :=
  if r.samples = [] ∨ r.sampleRate ≤ 0 ∨ stop ≤ start then r.emptied
  else
    let first := r.samplesBefore start
    let last := r.samplesBefore stop
    if last ≤ first then r.emptied else r.slice first last

def hasSamples (r : Record) : Bool :=
  !r.samples.isEmpty

end Record

end SeisFeed.Waveform
