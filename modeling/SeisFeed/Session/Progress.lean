import SeisFeed.Session.Retry
import SeisFeed.Waveform.Record
/-!
# Loops that make progress

A session reads until something is to be told to its caller. Each turn of such a loop either answers
or leaves a state that is smaller by some measure: fewer bytes to come, fewer records to hand out. A
turn that neither answers nor makes its state smaller would be repeated for ever, and that is what
the loop then reports; so it needs no bound on its turns.
-/

namespace SeisFeed.Session

open Waveform (Record)

/-- What a turn of a loop comes to. -/
inductive Turn (α σ : Type) where
  | answer (value : α) (state : σ)
  | again (state : σ)

def untilAnswer {α σ : Type} (size : σ → Nat) (turn : σ → Except Halt (Turn α σ)) (s : σ) :
    Except Halt (α × σ) :=
  match turn s with
  | .error halt => .error halt
  | .ok (.answer a s') => .ok (a, s')
  | .ok (.again s') => if size s' < size s then untilAnswer size turn s' else .error .endless
termination_by size s

/-- What a source of records answers when it is asked for the next: a record, nothing because there
are no more, or a fault. -/
abbrev Next : Type := Except SessionFault (Option Record)

/-- The records that a source still gives, and how it ends. -/
structure Remainder where
  records : List Record
  ending : Except SessionFault Unit

/-- One turn of asking for all records, of which some are collected, the latest first. -/
def collectTurn {σ : Type} (next : σ → Except Halt (Next × σ)) :
    List Record × σ → Except Halt (Turn (Except SessionFault Unit) (List Record × σ))
  | (collected, s) =>
    (next s).map fun (answer, s) =>
      match answer with
      | .ok (some record) => .again (record :: collected, s)
      | .ok none => .answer (.ok ()) (collected, s)
      | .error fault => .answer (.error fault) (collected, s)

def collect {σ : Type} (size : σ → Nat) (next : σ → Except Halt (Next × σ)) (s : σ) :
    Except Halt (Remainder × σ) :=
  (untilAnswer (fun (_, s) => size s) (collectTurn next) ([], s)).map fun (ending, collected, s) =>
    (⟨collected.reverse, ending⟩, s)

end SeisFeed.Session
