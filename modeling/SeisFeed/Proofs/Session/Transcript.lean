import SeisFeed.Proofs.Delivery.Keeping
import SeisFeed.Proofs.Session.Streaming
/-!
# Transcripts

A transcript lists the answers that messages give, each with what is then known of the channels. It
is the pass over the messages told answer by answer, without the end of the stream: nothing that
waits is flushed. The transcript of messages in two parts is that of the first part and then that
of the second, taken up with what is known after the first; this is what makes it fit for streams
that come over several connections.
-/

namespace SeisFeed.Session

open Delivery (Tracker)
open Waveform (PacketFault Record)

namespace Pass

variable (d : Directory) (t : Tracker) (m : Parcel) (ms : List Parcel)

/-- What is known of the channels after a message. -/
def known : Tracker :=
  (message d ⟨[], t, 0⟩ m).tracker

def told : List (Next × Tracker) :=
  (message d ⟨[], t, 0⟩ m).items.map fun a => (a, known d t m)

def knownAfter : Tracker :=
  ms.foldl (known d) t

def transcript : Tracker → List Parcel → List (Next × Tracker)
  | _, [] => []
  | t, m :: ms => told d t m ++ transcript (known d t m) ms

@[simp] theorem knownAfter_nil : knownAfter d t [] = t := rfl

@[simp] theorem knownAfter_cons : knownAfter d t (m :: ms) = knownAfter d (known d t m) ms := rfl

@[simp] theorem transcript_nil : transcript d t [] = [] := rfl

@[simp] theorem transcript_cons :
    transcript d t (m :: ms) = told d t m ++ transcript d (known d t m) ms := rfl

theorem transcript_append (ms' : List Parcel) :
    transcript d t (ms ++ ms') = transcript d t ms ++ transcript d (knownAfter d t ms) ms' := by
  induction ms generalizing t with
  | nil => rfl
  | cons m ms ih => simp [ih]

/-- What a message adds to a pass depends on nothing but what is known of the channels. -/
theorem message_from (p : Pass) :
    (message d p m).items = p.items ++ (told d p.tracker m).map Prod.fst ∧
      (message d p m).tracker = known d p.tracker m := by
  have hdecoded : ∀ result : Except PacketFault Record,
      (p.decoded result).items = p.items ++ (decoded ⟨[], p.tracker, 0⟩ result).items ∧
        (p.decoded result).tracker = (decoded ⟨[], p.tracker, 0⟩ result).tracker := by
    intro result
    cases result with
    | ok r => exact ⟨rfl, rfl⟩
    | error fault =>
      rw [decoded_error, decoded_error]
      split <;> simp
  have htold : (told d p.tracker m).map Prod.fst = (message d ⟨[], p.tracker, 0⟩ m).items := by
    simp [told, Function.comp_def]
  rw [htold, known, message, message]
  split
  · exact hdecoded _
  · exact hdecoded _
  · exact ⟨rfl, rfl⟩
  · simp

theorem answer_of_told {x : Next × Tracker} (h : x ∈ told d t m) :
    (∃ r, x.1 = .ok (some r)) ∨ ∃ text, x.1 = .error (.server text) := by
  have hdecoded : ∀ (result : Except PacketFault Record) (a : Next),
      a ∈ (decoded ⟨[], t, 0⟩ result).items → ∃ r, a = .ok (some r) := by
    intro result a ha
    cases result with
    | ok r =>
      have hanswers : a ∈ answers (t.reorder r).1 := ha
      obtain ⟨x, -, rfl⟩ := List.mem_map.1 hanswers
      exact ⟨x, rfl⟩
    | error fault =>
      rw [decoded_error] at ha
      split at ha <;> exact nomatch ha
  obtain ⟨a, ha, rfl⟩ := List.mem_map.1 h
  rw [message] at ha
  split at ha
  · exact .inl (hdecoded _ a ha)
  · exact .inl (hdecoded _ a ha)
  · exact .inr ⟨messageText m.body, by simpa using ha⟩
  · exact nomatch ha

theorem answer_of_transcript {x : Next × Tracker} (h : x ∈ transcript d t ms) :
    (∃ r, x.1 = .ok (some r)) ∨ ∃ text, x.1 = .error (.server text) := by
  induction ms generalizing t with
  | nil => exact nomatch h
  | cons m ms ih =>
    rcases List.mem_append.1 h with h | h
    · exact answer_of_told d t m h
    · exact ih (known d t m) h

variable {d t}

theorem keeps_known {capacity : Option Nat} (h : t.Keeps d capacity) :
    (known d t m).Keeps d capacity := by
  have hdecoded : ∀ result : Except PacketFault Record,
      (∀ r, result = .ok r → r.key ∈ d.keys) →
        (decoded ⟨[], t, 0⟩ result).tracker.Keeps d capacity := by
    intro result hkey
    cases result with
    | ok r =>
      obtain ⟨hreorder, hreleased⟩ := h.reorder (hkey r rfl)
      exact hreorder.observeAll hreleased
    | error fault =>
      rw [decoded_error]
      split <;> exact h
  rw [known, message]
  split
  · exact hdecoded _ fun r => key_mem_of_decodeCompressed
  · exact hdecoded _ fun r => key_mem_of_decodeDecompressed
  · exact h
  · exact h

theorem keeps_knownAfter {capacity : Option Nat} (h : t.Keeps d capacity) :
    (knownAfter d t ms).Keeps d capacity := by
  induction ms generalizing t with
  | nil => exact h
  | cons m ms ih => exact ih (keeps_known m h)

theorem keeps_of_transcript {capacity : Option Nat} (h : t.Keeps d capacity) {x : Next × Tracker}
    (hx : x ∈ transcript d t ms) : x.2.Keeps d capacity := by
  induction ms generalizing t with
  | nil => exact nomatch hx
  | cons m ms ih =>
    rcases List.mem_append.1 hx with hx | hx
    · obtain ⟨a, -, rfl⟩ := List.mem_map.1 hx
      exact keeps_known m h
    · exact ih (keeps_known m h) hx

end Pass

end SeisFeed.Session
