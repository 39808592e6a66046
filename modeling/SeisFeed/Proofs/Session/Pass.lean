import SeisFeed.Proofs.Session.Framing
import SeisFeed.Session.Subscription
/-!
# A pass over messages

What a subscription answers to its caller can be told without calls, queues and phases.
`Pass.through` goes through the messages of a server in order and lists the answers as they fall
due: a packet gives the records that its channel's reorder buffer releases, an error message gives a
fault, and the end of the stream gives what still waits, channel by channel.
-/

namespace SeisFeed.Session

open Delivery (Tracker)
open Waveform (PacketFault Record)
open Wire (Bytes)

/-- What a pass over messages has come to: the answers so far, what is known of the channels, and
how many packets could not be decoded. -/
structure Pass where
  items : List Next
  tracker : Tracker
  dropped : Nat

def answers (rs : List Record) : List Next :=
  rs.map fun r => .ok (some r)

@[simp] theorem answers_append (rs rs' : List Record) :
    answers (rs ++ rs') = answers rs ++ answers rs' :=
  List.map_append

def Parcel.ends (m : Parcel) : Bool :=
  MessageKind.ofCode? m.code == some .terminateSubscription

/-- The messages behind the first that ends the stream. -/
def Parcel.unread (ms : List Parcel) : List Parcel :=
  (ms.dropWhile fun m => !m.ends).drop 1

theorem Parcel.unread_cons_of_ends {m : Parcel} (ms : List Parcel) (h : m.ends = true) :
    unread (m :: ms) = ms := by
  simp [unread, h]

theorem Parcel.unread_cons {m : Parcel} (ms : List Parcel) (h : m.ends = false) :
    unread (m :: ms) = unread ms := by
  simp [unread, h]

namespace Pass

/-- Records come out: each is observed once, and is an answer. -/
def deliver (p : Pass) (rs : List Record) : Pass :=
  { p with items := p.items ++ answers rs, tracker := p.tracker.observeAll rs }

def decoded (p : Pass) : Except PacketFault Record → Pass
  | .ok r => { p with tracker := (p.tracker.reorder r).2 }.deliver (p.tracker.reorder r).1
  | .error .fillerPacket => p
  | .error _ => { p with dropped := p.dropped + 1 }

def message (d : Directory) (p : Pass) (m : Parcel) : Pass :=
  match MessageKind.ofCode? m.code with
  | some .compressed => p.decoded (Waveform.decodeCompressed d m.body)
  | some .decompressed => p.decoded (Waveform.decodeDecompressed d m.body)
  | some .error => { p with items := p.items ++ [.error (.server (messageText m.body))] }
  | _ => p

/-- The end of the stream: what waits comes out, channel by channel in the order of the
directory. -/
def finish (d : Directory) (p : Pass) : Pass :=
  { p with tracker := p.tracker.flush.2 }.deliver
    (d.keys.flatMap fun key => (p.tracker.stateOf key).waiting)

/-- The messages in front of the first that ends the stream, and then its end. -/
def through (d : Directory) (p : Pass) (ms : List Parcel) : Pass :=
  ((ms.takeWhile fun m => !m.ends).foldl (message d) p).finish d

variable (d : Directory) (p : Pass) (m : Parcel) (ms : List Parcel)

theorem decoded_error (fault : PacketFault) :
    p.decoded (.error fault) =
      if fault = .fillerPacket then p else { p with dropped := p.dropped + 1 } := by
  cases fault <;> rfl

theorem through_cons_of_ends (h : m.ends = true) : through d p (m :: ms) = p.finish d := by
  simp [through, h]

theorem through_cons (h : m.ends = false) :
    through d p (m :: ms) = through d (p.message d m) ms := by
  simp [through, h]

/-! ### Answers that are already there -/

def behind (front : List Next) (p : Pass) : Pass :=
  { p with items := front ++ p.items }

variable (front : List Next)

theorem deliver_behind (rs : List Record) :
    (p.behind front).deliver rs = (p.deliver rs).behind front := by
  simp [deliver, behind]

theorem decoded_behind (result : Except PacketFault Record) :
    (p.behind front).decoded result = (p.decoded result).behind front := by
  cases result with
  | ok r => exact deliver_behind { p with tracker := (p.tracker.reorder r).2 } front _
  | error fault =>
    rw [decoded_error, decoded_error]
    split <;> rfl

theorem message_behind : message d (p.behind front) m = (message d p m).behind front := by
  rw [message, message]
  split
  · exact decoded_behind _ _ _
  · exact decoded_behind _ _ _
  · simp [behind]
  · rfl

theorem finish_behind : (p.behind front).finish d = (p.finish d).behind front :=
  deliver_behind { p with tracker := p.tracker.flush.2 } front _

theorem through_behind : through d (p.behind front) ms = (through d p ms).behind front := by
  have hfold : ∀ ms : List Parcel,
      ms.foldl (message d) (p.behind front) = (ms.foldl (message d) p).behind front := by
    intro ms
    induction ms generalizing p with
    | nil => rfl
    | cons m ms ih => rw [List.foldl_cons, message_behind, ih, List.foldl_cons]
  rw [through, hfold, finish_behind, through]

/-! ### No answer says that there are no more -/

theorem none_notMem_answers (rs : List Record) : (.ok none : Next) ∉ answers rs := by
  simp [answers]

theorem none_notMem_message (h : .ok none ∉ p.items) : .ok none ∉ (message d p m).items := by
  have hdecoded : ∀ result, .ok none ∉ (p.decoded result).items := by
    intro result
    cases result with
    | ok r => exact List.not_mem_append h (none_notMem_answers _)
    | error fault =>
      rw [decoded_error]
      split <;> exact h
  rw [message]
  split
  · exact hdecoded _
  · exact hdecoded _
  · simpa using h
  · exact h

theorem none_notMem_through (h : .ok none ∉ p.items) : .ok none ∉ (through d p ms).items := by
  have hfold : ∀ ms : List Parcel, .ok none ∉ (ms.foldl (message d) p).items := by
    intro ms
    induction ms generalizing p with
    | nil => exact h
    | cons m ms ih => exact ih (message d p m) (none_notMem_message d p m h)
  exact List.not_mem_append (hfold _) (none_notMem_answers _)

end Pass

end SeisFeed.Session
