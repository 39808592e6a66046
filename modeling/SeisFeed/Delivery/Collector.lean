import SeisFeed.Delivery.Pipeline
/-!
# Collectors

A collector is a world whose one sink keeps the records it is handed, and may ask for the stream to
be stopped on a record of a given number.
-/

namespace SeisFeed.Delivery

open Waveform (Record)

/-- The records handed over so far, and whether the stream is to be stopped. -/
structure Collector where
  /-- The records, the latest first. -/
  latest : List Record
  /-- The number of the record on which to stop; the first is number 1. -/
  limit : Option Nat
  stopped : Bool

namespace Collector

/-- A collector that has been handed nothing, of a stream that may have been stopped before. -/
def new (limit : Option Nat) (stopped : Bool) : Collector :=
  ⟨[], limit, stopped⟩

/-- The records in the order in which they were handed over. -/
def records (c : Collector) : List Record :=
  c.latest.reverse

def add (r : Record) (c : Collector) : Collector :=
  { c with
    latest := r :: c.latest
    stopped := c.stopped || c.limit == some (c.latest.length + 1) }

def pipeline : Pipeline Collector :=
  [{ name := defaultSinkName, take := fun r c => (.ok (), c.add r) }]

end Collector

end SeisFeed.Delivery
