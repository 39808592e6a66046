import SeisFeed.Text.Quoted
import SeisFeed.Waveform.Record
/-!
# Pipelines

A pipeline hands each record to its sinks in order. A sink that fails does not keep the record from
the others; failures are only counted. Sinks share a world that they change.
-/

namespace SeisFeed.Delivery

open Waveform (Record)

/-- Why a sink does not take a record. -/
inductive SinkFault where
  | io (reason : String)
  | closed
  | other (reason : String)
  deriving DecidableEq, Repr

def SinkFault.message : SinkFault → String
  | io reason => s!"I/O error: {reason}"
  | closed => "sink closed"
  | other reason => reason

/-- A consumer of records in a world. -/
structure Sink (σ : Type) where
  name : String
  take : Record → σ → Except SinkFault Unit × σ

def defaultSinkName : String := "sink"

/-- The consumers of a stream, in the order in which they are served. -/
abbrev Pipeline (σ : Type) := List (Sink σ)

namespace Pipeline

variable {σ : Type}

/-- Hands a record to every sink, and answers how many failed. -/
def process (p : Pipeline σ) (r : Record) (world : σ) : Nat × σ :=
  p.foldl
    (fun (failed, world) sink =>
      match sink.take r world with
      | (.ok _, world) => (failed, world)
      | (.error _, world) => (failed + 1, world))
    (0, world)

def describe (p : Pipeline σ) : String :=
  let names := ", ".intercalate (p.map fun sink => Text.quoted sink.name)
  s!"RecordPipeline \x7b sinks: [{names}] \x7d"

end Pipeline

end SeisFeed.Delivery
