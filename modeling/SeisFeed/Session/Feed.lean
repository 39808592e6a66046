import SeisFeed.Delivery.Pipeline
import SeisFeed.Session.Progress
/-!
# Feeding a pipeline

A source of records feeds a pipeline: it hands it one record after the other, until it has no more
or fails. The pipeline's sinks act on a world, and the records fed are counted.
-/

namespace SeisFeed.Session

open Delivery (Pipeline)
open Waveform (Record)

/-- A source that feeds a pipeline in a world, and how many records it has fed. -/
structure Feed (κ σ : Type) where
  source : κ
  world : σ
  count : Nat

namespace Feed

variable {κ σ : Type}

def start (source : κ) (world : σ) : Feed κ σ :=
  ⟨source, world, 0⟩

def give (pipeline : Pipeline σ) (r : Record) (f : Feed κ σ) : Feed κ σ :=
  { f with world := (pipeline.process r f.world).2, count := f.count + 1 }

/-- Takes what the source answered: a record is fed, and anything else ends the feeding. -/
def take (pipeline : Pipeline σ) (f : Feed κ σ) : Next → Turn (Except SessionFault Unit) (Feed κ σ)
  | .error fault => .answer (.error fault) f
  | .ok none => .answer (.ok ()) f
  | .ok (some r) => .again (f.give pipeline r)

/-- One turn of feeding: asks the source for its next record. -/
def turn (pipeline : Pipeline σ) (next : κ → Except Halt (Next × κ)) (f : Feed κ σ) :
    Except Halt (Turn (Except SessionFault Unit) (Feed κ σ)) :=
  (next f.source).map fun (answer, source) => { f with source := source }.take pipeline answer

def total (result : Except SessionFault Unit) (f : Feed κ σ) : Except SessionFault Nat :=
  result.map fun () => f.count

end Feed

end SeisFeed.Session
