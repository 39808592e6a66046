import SeisFeed.Waveform.Record
/-!
# Putting packets in order

Packets of a channel can arrive out of order. A reorder buffer releases them by sequence number: the
first to arrive opens the run, and a later one waits until all before it have been released. When
more wait than the buffer holds, the gap in front of the first of them is given up.

Sequence numbers wrap around, so they are compared by how far they are ahead of the last one
released: a number is ahead when the wrapping difference is positive. That distance leads from the
place of the last item released to the place of the new one, a count that does not wrap and whose
low 32 bits are the sequence number. What waits is kept by its place.
-/

namespace SeisFeed.Delivery

open Waveform (Record)

/-- What waits behind a gap in a run of sequence numbers. -/
structure ReorderBuffer (α : Type) where
  capacity : Nat
  /-- What waits, by its place, nearest first. -/
  waiting : List (Int64 × α)
  lastReleased : Option Int32
  /-- The place of the last item released. -/
  position : Int64
  deriving Repr

namespace ReorderBuffer

variable {α : Type}

/-- A buffer that has seen nothing. It has room for at least one. -/
def new (capacity : Nat) : ReorderBuffer α :=
  ⟨max capacity 1, [], none, 0⟩

/-- The place of a sequence number, if it is ahead of the last one released. The first number to
arrive is its own place. -/
def place? (b : ReorderBuffer α) (seq : Int32) : Option Int64 :=
  match b.lastReleased with
  | none => some seq.toInt64
  | some last => if seq - last ≤ 0 then none else some (b.position + (seq - last).toInt64)

/-- Puts an item among those that wait, in front of all whose places come after its own. -/
def insert (place : Int64) (item : α) : List (Int64 × α) → List (Int64 × α)
  | [] => [(place, item)]
  | (p, a) :: rest =>
    if place < p then (place, item) :: (p, a) :: rest else (p, a) :: insert place item rest

def passed (b : ReorderBuffer α) (place : Int64) : ReorderBuffer α :=
  { b with lastReleased := some place.toInt32, position := place }

/-- Releases what need not wait: the nearest item goes if it opens the run, if it is the next in
sequence, or if there are more than the capacity. -/
def settle (b : ReorderBuffer α) : List (Int64 × α) → List α × ReorderBuffer α
  | [] => ([], { b with waiting := [] })
  | (place, item) :: rest =>
    if b.lastReleased = none ∨ place = b.position + 1 ∨ b.capacity < rest.length + 1 then
      let (released, b) := settle (b.passed place) rest
      (item :: released, b)
    else ([], { b with waiting := (place, item) :: rest })

/-- Takes an item with its sequence number, and releases what can be released. An item that is not
ahead came too late or was released before, and is dropped; so is one whose place is taken. -/
def push (b : ReorderBuffer α) (seq : Int32) (item : α) : List α × ReorderBuffer α :=
  match b.place? seq with
  | none => ([], b)
  | some place =>
    if place ∈ b.waiting.map Prod.fst then ([], b) else b.settle (insert place item b.waiting)

def flush (b : ReorderBuffer α) : List α × ReorderBuffer α :=
  (b.waiting.map Prod.snd,
    match b.waiting.getLast? with
    | none => b
    | some (place, _) => { b.passed place with waiting := [] })

/-- Takes a record by its sequence number. A record without one passes at once. -/
def pushRecord (b : ReorderBuffer Record) (r : Record) : List Record × ReorderBuffer Record :=
  match r.sequence with
  | none => ([r], b)
  | some seq => b.push seq r

end ReorderBuffer

end SeisFeed.Delivery
