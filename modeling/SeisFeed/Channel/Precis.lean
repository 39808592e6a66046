import SeisFeed.Channel.Directory
/-!
# Precis lists

An archive tells by a precis list which range of time it holds for each channel.
-/

namespace SeisFeed

open Wire (Bytes Read Field)

def precisEntryLength : Nat := 24

/-- The range of time that an archive holds for a channel. -/
structure Precis where
  key : UInt32
  name : String
  startTime : Int32
  endTime : Int32
  deriving DecidableEq, Repr

namespace Precis

def fields (p : Precis) : List Field :=
  [.word32 p.key, .text p.name nameLength, .int32 p.startTime, .int32 p.endTime]

def read : Read Precis := do
  let key ← Read.word32
  let name ← Read.text nameLength
  let startTime ← Read.int32
  let endTime ← Read.int32
  return ⟨key, name, startTime, endTime⟩

/-- The entries in the body of a precis list, keys repeated or not. Bytes after the last entry are
ignored. -/
def parseList (body : Bytes) : Except ProtocolFault (List Precis) :=
  match Read.word32 (Wire.Cursor.start body) with
  | (none, _) => .error (.invalidPrecisList "missing count")
  | (some count, c) =>
    match (Read.many read count.toNat c).1 with
    | none => .error (.invalidPrecisList
        s!"{count} entries need {count.toNat * precisEntryLength} bytes, body has {c.remaining}")
    | some entries => .ok entries

def encodeList (entries : List Precis) : Bytes :=
  Field.encodeAll (.word32 (UInt32.ofNat entries.length) :: entries.flatMap fields)

end Precis

end SeisFeed
