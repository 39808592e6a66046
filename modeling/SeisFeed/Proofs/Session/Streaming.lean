import SeisFeed.Proofs.Channel.Lookup
import SeisFeed.Proofs.Delivery.Following
import SeisFeed.Proofs.Session.Pass
import SeisFeed.Proofs.Session.Progress
/-!
# Streaming

A subscription is read call by call, and a call goes on receiving messages until there is something
to answer. One message can lay out many records, which are handed out one by one before the next
message is received. `Owes` relates a subscription to the part of the pass over its messages that
its caller has not seen yet; a call answers the first of these and leaves the others.
-/

namespace SeisFeed.Session

open Delivery (Tracker)
open Waveform (PacketFault Record)
open Wire (Bytes)

/-! ### Packets -/

theorem key_mem_of_resolve {d : Directory} {key : UInt32} {record : Channel → Record} {r : Record}
    (h : (Waveform.resolve d key).map record = .ok r) (hkey : ∀ c, (record c).key = key) :
    r.key ∈ d.keys := by
  rw [Waveform.resolve] at h
  split at h
  · exact nomatch h
  · next c hget =>
    obtain ⟨hc, hckey⟩ := (d.get?_eq_some_iff key c).1 hget
    obtain rfl : record c = r := Except.ok.inj h
    rw [hkey c, ← hckey]
    exact List.mem_map_of_mem hc

theorem key_mem_of_decodeCompressed {d : Directory} {body : Bytes} {r : Record}
    (h : Waveform.decodeCompressed d body = .ok r) : r.key ∈ d.keys := by
  rw [Waveform.decodeCompressed] at h
  split at h
  · exact nomatch h
  · dsimp only at h
    split at h
    · exact nomatch h
    split at h
    · exact nomatch h
    split at h
    · exact nomatch h
    exact key_mem_of_resolve h fun _ => rfl

theorem key_mem_of_decodeDecompressed {d : Directory} {body : Bytes} {r : Record}
    (h : Waveform.decodeDecompressed d body = .ok r) : r.key ∈ d.keys := by
  rw [Waveform.decodeDecompressed] at h
  split at h
  · exact nomatch h
  · dsimp only at h
    split at h
    · exact nomatch h
    split at h
    · exact nomatch h
    exact key_mem_of_resolve h fun _ => rfl

namespace Subscription

/-! ### Turns -/

variable {s : Subscription} {link : Link} {m : Parcel} {ms : List Parcel}

/-- The part of the pass that has come out and is not handed out yet. -/
def ahead (s : Subscription) : Pass :=
  ⟨answers s.ready, s.tracker, s.dropped⟩

/-- A subscription that receives messages on a link and follows the channels subscribed to. -/
structure Receiving (s : Subscription) (link : Link) (ms : List Parcel) : Prop where
  phase : s.phase = .subscribed ∨ s.phase = .streaming
  link : s.link = link.closedAfter (Parcel.stream ms)
  follows : s.tracker.Follows s.subscribed

theorem ahead_deliver (s : Subscription) (rs : List Record) :
    (s.deliver rs).ahead = s.ahead.deliver rs := by
  rw [ahead, deliver, answers_append]
  rfl

theorem accept_error (s : Subscription) (fault : PacketFault) :
    s.accept (.error fault) =
      if fault = .fillerPacket then s else { s with dropped := s.dropped + 1 } := by
  cases fault <;> rfl

theorem ahead_accept (s : Subscription) (result : Except PacketFault Record) :
    (s.accept result).ahead = s.ahead.decoded result := by
  cases result with
  | ok r => exact ahead_deliver { s with tracker := (s.tracker.reorder r).2 } _
  | error fault =>
    rw [accept_error, Pass.decoded_error]
    split <;> rfl

/-- Taking a packet adds at most one record to those that are or will be handed out. -/
theorem size_accept_le (s : Subscription) (result : Except PacketFault Record) :
    (s.accept result).size ≤ s.size + 1 := by
  cases result with
  | ok r =>
    have hreorder := s.tracker.length_reorder_le r
    have hobserve := (s.tracker.reorder r).2.waitingCount_observeAll (s.tracker.reorder r).1
    simp only [accept, deliver, size, List.length_append, hobserve]
    omega
  | error fault =>
    rw [accept_error]
    split <;> exact Nat.le_succ _

theorem accept_frame (s : Subscription) (result : Except PacketFault Record) :
    (s.accept result).link = s.link ∧ (s.accept result).phase = s.phase ∧
      (s.accept result).subscribed = s.subscribed := by
  cases result with
  | ok r => exact ⟨rfl, rfl, rfl⟩
  | error fault =>
    rw [accept_error]
    split <;> exact ⟨rfl, rfl, rfl⟩

theorem Receiving.accept {result : Except PacketFault Record} (hs : s.Receiving link ms)
    (hkey : ∀ r, result = .ok r → r.key ∈ s.subscribed.keys) :
    (s.accept result).Receiving link ms := by
  obtain ⟨hlink, hphase, hsubscribed⟩ := s.accept_frame result
  refine ⟨hphase ▸ hs.phase, hlink ▸ hs.link, ?_⟩
  rw [hsubscribed]
  cases result with
  | ok r => exact (hs.follows.reorder (hkey r rfl)).observeAll _
  | error fault =>
    rw [accept_error]
    split <;> exact hs.follows

/-- What a message makes of a subscription: it ends the stream, or its fault is answered, or the
subscription goes on from what the pass has come to. -/
inductive Handled (s : Subscription) (m : Parcel) : Turn Next Subscription → Prop where
  | close (hends : m.ends = true) : Handled s m s.close
  | fault {fault : SessionFault} (hends : m.ends = false)
      (hpass : ∀ p : Pass,
        p.message s.subscribed m = { p with items := p.items ++ [.error fault] }) :
      Handled s m (.answer (.error fault) s)
  | again {s' : Subscription} (hends : m.ends = false) (hsubscribed : s'.subscribed = s.subscribed)
      (hahead : s'.ahead = s.ahead.message s.subscribed m)
      (hreceiving : ∀ link ms, s.Receiving link ms → s'.Receiving link ms)
      (hsize : s'.size ≤ s.size + 1) : Handled s m (.again s')

theorem handled (s : Subscription) (m : Parcel) : Handled s m (s.handle m.message) := by
  have hpacket : ∀ result : Except PacketFault Record,
      m.ends = false → (∀ p : Pass, p.message s.subscribed m = p.decoded result) →
      (∀ r, result = .ok r → r.key ∈ s.subscribed.keys) →
      Handled s m (.again (s.accept result)) := by
    intro result hends hpass hkey
    exact .again hends (s.accept_frame result).2.2 ((s.ahead_accept result).trans (hpass _).symm)
      (fun _ _ hs => hs.accept hkey) (s.size_accept_le result)
  have hkind : m.message.header.kind? = MessageKind.ofCode? m.code := rfl
  rw [handle, hkind]
  split
  · next h =>
    exact hpacket _ (by simp [Parcel.ends, h]) (fun p => by rw [Pass.message, h]; rfl)
      fun _ => key_mem_of_decodeCompressed
  · next h =>
    exact hpacket _ (by simp [Parcel.ends, h]) (fun p => by rw [Pass.message, h]; rfl)
      fun _ => key_mem_of_decodeDecompressed
  · next h => exact .fault (by simp [Parcel.ends, h]) fun p => by rw [Pass.message, h]; rfl
  · next h => exact .close (by simp [Parcel.ends, h])
  · next hcompressed hdecompressed herror hend =>
    refine .again ?_ rfl ?_ (fun _ _ hs => hs) (Nat.le_succ _)
    · simpa [Parcel.ends] using hend
    · rw [Pass.message]
      split
      · next h => exact absurd h hcompressed
      · next h => exact absurd h hdecompressed
      · next h => exact absurd h herror
      · rfl

/-! ### What is owed -/

/-- The part of a pass that a subscription has still to answer to its caller, and the messages that
it will not receive. -/
inductive Owes (link : Link) : Subscription → Pass → List Parcel → Prop where
  | receiving {s : Subscription} {ms : List Parcel} (hs : s.Receiving link ms) :
      Owes link s (s.ahead.through s.subscribed ms) (Parcel.unread ms)
  | closed {s : Subscription} {ms : List Parcel} (hphase : s.phase = .closed)
      (hlink : s.link = link.closedAfter (Parcel.stream ms)) : Owes link s s.ahead ms

/-- An answer is the first that is owed, or that there are no more, and then the stream has ended;
and the others remain. -/
structure Answered (link : Link) (p : Pass) (unread : List Parcel) (a : Next) (s : Subscription) :
    Prop where
  first : a = p.items.headD (.ok none)
  rest : Owes link s { p with items := p.items.tail } unread
  ended : p.items = [] → s.phase = .closed

theorem Receiving.answered {r : Record} {rest : List Record} (hs : s.Receiving link ms)
    (hready : s.ready = r :: rest) :
    Answered link (s.ahead.through s.subscribed ms) (Parcel.unread ms) (.ok (some r))
      { s with ready := rest } := by
  have hahead :
      s.ahead = ({ s with ready := rest } : Subscription).ahead.behind [.ok (some r)] := by
    rw [ahead, hready]
    rfl
  have hrest : Receiving { s with ready := rest } link ms := ⟨hs.phase, hs.link, hs.follows⟩
  rw [hahead, Pass.through_behind]
  exact ⟨rfl, .receiving hrest, fun h => absurd h (List.cons_ne_nil _ _)⟩

theorem answered_pop (hphase : s.phase = .closed)
    (hlink : s.link = link.closedAfter (Parcel.stream ms)) :
    Answered link s.ahead ms (.ok s.pop.1) s.pop.2 := by
  cases hready : s.ready with
  | nil =>
    have hpop : s.pop = (none, s) := by rw [pop, hready]
    have hahead : s.ahead = ⟨[], s.tracker, s.dropped⟩ := by
      rw [ahead, hready]
      rfl
    have hrest : Owes link s s.ahead ms := .closed hphase hlink
    rw [hpop]
    rw [hahead] at hrest ⊢
    exact ⟨rfl, hrest, fun _ => hphase⟩
  | cons r rest =>
    have hpop : s.pop = (some r, { s with ready := rest }) := by rw [pop, hready]
    have hahead : s.ahead = ⟨.ok (some r) :: answers rest, s.tracker, s.dropped⟩ := by
      rw [ahead, hready]
      rfl
    have hrest : Owes link { s with ready := rest } ⟨answers rest, s.tracker, s.dropped⟩ ms :=
      .closed (s := { s with ready := rest }) hphase hlink
    rw [hpop, hahead]
    exact ⟨rfl, hrest, fun h => absurd h (List.cons_ne_nil _ _)⟩

theorem answered_close (hfollows : s.tracker.Follows s.subscribed)
    (hlink : s.link = link.closedAfter (Parcel.stream ms)) :
    ∃ a s', s.close = .answer a s' ∧ Answered link (s.ahead.finish s.subscribed) ms a s' := by
  have hahead : s.finish.ahead = s.ahead.finish s.subscribed := by
    have hwaiting : s.tracker.flush.1 =
        s.subscribed.keys.flatMap fun key => (s.ahead.tracker.stateOf key).waiting := hfollows.flush
    rw [Pass.finish, ← hwaiting]
    exact ahead_deliver { s with phase := .closed, tracker := s.tracker.flush.2 } _
  refine ⟨.ok s.finish.pop.1, s.finish.pop.2, rfl, ?_⟩
  rw [← hahead]
  exact answered_pop rfl hlink

/-! ### Calls -/

/-- The subscription when only some messages are left on its link. -/
def received (s : Subscription) (link : Link) (ms : List Parcel) : Subscription :=
  { s with link := link.closedAfter (Parcel.stream ms) }

theorem size_received (hlink : s.link = link.closedAfter (Parcel.stream (m :: ms))) :
    (s.received link ms).size + headerLength ≤ s.size := by
  have hlength : (Parcel.stream (m :: ms)).length =
      headerLength + m.body.length + (Parcel.stream ms).length := by
    rw [Parcel.stream_cons, Parcel.encode, List.length_append, List.length_append,
      length_encode_header]
  simp only [size, received, Link.size, hlink, Link.closedAfter, Incoming.size, hlength]
  omega

theorem turn_ready {r : Record} {rest : List Record} (hready : s.ready = r :: rest) :
    Except.ok s.turn =
      (.ok (.answer (.ok (some r)) { s with ready := rest }) : Except Halt _) := by
  rw [turn, hready]

/-- With nothing laid out, a turn receives a message. It need not wait: the server has sent all. -/
theorem turn_of_receive {bytes : Bytes} {result : Except SessionFault Message} {link' : Link}
    (hready : s.ready = []) (hlink : s.link = link.closedAfter bytes)
    (hreceive : Link.receiveMessage s.link = (result, link')) :
    (∀ message, result = .ok message →
      s.turn = ({ s with link := link' } : Subscription).handle message) ∧
      ∀ fault, result = .error fault →
        s.turn = ({ s with link := link' } : Subscription).fail fault := by
  have hwait : s.mustWait = false := by
    simp [mustWait, hlink, Link.closedAfter, Incoming.readable, Incoming.isLast]
  rw [turn]
  split
  · next h => exact absurd (h.symm.trans hready) (List.cons_ne_nil _ _)
  · rw [hwait, hreceive]
    constructor
    · rintro message rfl
      rfl
    · rintro fault rfl
      rfl

theorem turn_message (hready : s.ready = [])
    (hlink : s.link = link.closedAfter (Parcel.stream (m :: ms))) :
    s.turn = (s.received link ms).handle m.message := by
  have hreceive : Link.receiveMessage s.link =
      (.ok m.message, link.closedAfter (Parcel.stream ms)) := by
    rw [hlink, Parcel.stream_cons]
    exact Link.receiveMessage_append (link.closedAfter []) m _
  exact (turn_of_receive hready hlink hreceive).1 m.message rfl

theorem turn_end (hready : s.ready = []) (hlink : s.link = link.closedAfter []) :
    s.turn = s.close := by
  have hreceive : Link.receiveMessage s.link = (.error .disconnected, s.link) := by
    rw [hlink]
    exact Link.receiveMessage_closed link
  exact (turn_of_receive hready hlink hreceive).2 .disconnected rfl

theorem answered_untilAnswer (hs : s.Receiving link ms) :
    ∃ a s', untilAnswer size (fun s => .ok s.turn) s = .ok (a, s') ∧
      Answered link (s.ahead.through s.subscribed ms) (Parcel.unread ms) a s' := by
  induction ms generalizing s with
  | nil =>
    cases hready : s.ready with
    | cons r rest => exact ⟨_, _, untilAnswer_answer (turn_ready hready), hs.answered hready⟩
    | nil =>
      have hlink : s.link = link.closedAfter (Parcel.stream []) := hs.link
      obtain ⟨a, s', hclose, hanswered⟩ := answered_close hs.follows hlink
      refine ⟨a, s', untilAnswer_answer ?_, hanswered⟩
      rw [turn_end hready hlink, hclose]
  | cons m ms ih =>
    cases hready : s.ready with
    | cons r rest => exact ⟨_, _, untilAnswer_answer (turn_ready hready), hs.answered hready⟩
    | nil =>
      have hturn := turn_message hready hs.link
      have hsize := size_received hs.link
      have hreceived : (s.received link ms).Receiving link ms := ⟨hs.phase, rfl, hs.follows⟩
      have hitems : s.ahead.items = [] := by
        rw [ahead, hready]
        rfl
      have hhandled := handled (s.received link ms) m
      generalize (s.received link ms).handle m.message = outcome at hturn hhandled
      cases hhandled with
      | close hends =>
        obtain ⟨a, s', hclose, hanswered⟩ := answered_close hreceived.follows hreceived.link
        rw [Pass.through_cons_of_ends _ _ _ _ hends, Parcel.unread_cons_of_ends ms hends]
        exact ⟨a, s', untilAnswer_answer (by rw [hturn, hclose]), hanswered⟩
      | @fault fault hends hpass =>
        have hbehind : ({ s.ahead with items := s.ahead.items ++ [.error fault] } : Pass) =
            s.ahead.behind [.error fault] := by
          rw [Pass.behind, hitems]
          rfl
        have hpass : s.ahead.message s.subscribed m = s.ahead.behind [.error fault] :=
          (hpass s.ahead).trans hbehind
        have hrest : Owes link (s.received link ms) (s.ahead.through s.subscribed ms)
            (Parcel.unread ms) := .receiving hreceived
        rw [Pass.through_cons _ _ _ _ hends, Parcel.unread_cons ms hends, hpass,
          Pass.through_behind]
        refine ⟨.error fault, s.received link ms, untilAnswer_answer (by rw [hturn]), ?_⟩
        exact ⟨rfl, hrest, fun h => absurd h (List.cons_ne_nil _ _)⟩
      | @again s' hends hsubscribed hahead hreceiving hsize' =>
        have hpass : s.ahead.message s.subscribed m = s'.ahead := hahead.symm
        have hdirectory : s.subscribed = s'.subscribed := hsubscribed.symm
        have hless : s'.size < s.size := by
          rw [headerLength] at hsize
          omega
        have hagain : untilAnswer size (fun s => .ok s.turn) s =
            untilAnswer size (fun s => .ok s.turn) s' :=
          untilAnswer_again (by rw [hturn]) hless
        rw [Pass.through_cons _ _ _ _ hends, Parcel.unread_cons ms hends, hpass, hdirectory, hagain]
        exact ih (hreceiving link ms hreceived)

theorem Owes.of_closed {p : Pass} {unread : List Parcel} (h : Owes link s p unread)
    (hphase : s.phase = .closed) :
    p = s.ahead ∧ s.link = link.closedAfter (Parcel.stream unread) := by
  cases h with
  | receiving hs =>
    rcases hs.phase with h | h
    · exact nomatch hphase.symm.trans h
    · exact nomatch hphase.symm.trans h
  | closed _ hlink => exact ⟨rfl, hlink⟩

theorem Owes.answered_next {p : Pass} {unread : List Parcel} (h : Owes link s p unread) :
    ∃ a s', s.next = .ok (a, s') ∧ Answered link p unread a s' := by
  cases h with
  | closed hphase hlink =>
    refine ⟨.ok s.pop.1, s.pop.2, ?_, answered_pop hphase hlink⟩
    rw [next, pop, hphase]
    cases s.ready <;> rfl
  | receiving hs =>
    cases hready : s.ready with
    | cons r rest =>
      refine ⟨_, _, ?_, hs.answered hready⟩
      rw [next, hready]
    | nil =>
      have hstreaming : Receiving { s with phase := .streaming } link _ :=
        ⟨.inr rfl, hs.link, hs.follows⟩
      obtain ⟨a, s', hturns, hanswered⟩ := answered_untilAnswer hstreaming
      refine ⟨a, s', ?_, hanswered⟩
      rw [← hturns, next, hready]
      rcases hs.phase with hphase | hphase
      · rw [hphase]
      · rw [hphase]

def calls : Nat → Subscription → Except Halt (List Next × Subscription)
  | 0, s => .ok ([], s)
  | count + 1, s =>
    match s.next with
    | .error halt => .error halt
    | .ok (a, s) => (calls count s).map fun (rest, s) => (a :: rest, s)

theorem calls_succ {count : Nat} {a : Next} {rest : List Next} {s' s'' : Subscription}
    (hnext : s.next = .ok (a, s')) (hcalls : s'.calls count = .ok (rest, s'')) :
    s.calls (count + 1) = .ok (a :: rest, s'') := by
  rw [calls, hnext]
  show (s'.calls count).map _ = _
  rw [hcalls]
  rfl

theorem calls_ended (hphase : s.phase = .closed) (hready : s.ready = []) (count : Nat) :
    s.calls count = .ok (List.replicate count (.ok none), s) := by
  induction count with
  | zero => rfl
  | succ count ih =>
    have hnext : s.next = .ok (.ok none, s) := by rw [next, hready, hphase]
    exact calls_succ hnext ih

/-- All that is owed is answered, and then that there are no more. -/
theorem Owes.calls_eq {p : Pass} {unread : List Parcel} (h : Owes link s p unread) (count : Nat) :
    ∃ s' : Subscription, s.calls (p.items.length + (1 + count)) =
        .ok (p.items ++ List.replicate (1 + count) (.ok none), s') ∧
      s'.phase = .closed ∧ s'.ready = [] ∧ s'.tracker = p.tracker ∧ s'.dropped = p.dropped ∧
      s'.link = link.closedAfter (Parcel.stream unread) := by
  obtain ⟨items, tracker, dropped⟩ := p
  induction items generalizing s with
  | nil =>
    obtain ⟨a, s', hnext, rfl, hrest, hended⟩ := h.answered_next
    have hphase := hended rfl
    obtain ⟨hahead, hlink⟩ := hrest.of_closed hphase
    obtain ⟨hready, htracker, hdropped⟩ := Pass.mk.inj hahead
    have hready : s'.ready = [] := List.map_eq_nil_iff.1 hready.symm
    refine ⟨s', ?_, hphase, hready, htracker.symm, hdropped.symm, hlink⟩
    have hcalls := calls_succ hnext (calls_ended hphase hready count)
    rw [List.length_nil, Nat.zero_add, Nat.add_comm]
    exact hcalls
  | cons a items ih =>
    obtain ⟨a, s', hnext, rfl, hrest, -⟩ := h.answered_next
    obtain ⟨s'', hcalls, hfinal⟩ := ih hrest
    refine ⟨s'', ?_, hfinal⟩
    have hcalls := calls_succ hnext hcalls
    rw [List.length_cons, Nat.add_right_comm]
    exact hcalls

/-- **Streaming is a pass over messages.** A client that has just subscribed answers to its calls
what a pass over the messages of the server comes to, one by one, and from then on that there are no
more. What is known of the channels and the count of packets dropped are in the end those of the
pass, and what the server sent behind the end of the stream is not read. -/
theorem calls_opened (request : StreamRequest) (tracker : Tracker)
    (directory subscribed : Directory) (link : Link) (ms : List Parcel) :
    let s := opened request tracker directory subscribed (link.closedAfter (Parcel.stream ms))
    let p := Pass.through subscribed ⟨[], s.tracker, 0⟩ ms
    .ok none ∉ p.items ∧ ∀ count, ∃ s' : Subscription,
      s.calls (p.items.length + (1 + count)) =
        .ok (p.items ++ List.replicate (1 + count) (.ok none), s') ∧
      s'.phase = .closed ∧ s'.ready = [] ∧ s'.tracker = p.tracker ∧ s'.dropped = p.dropped ∧
      s'.link = link.closedAfter (Parcel.stream (Parcel.unread ms)) := by
  intro s p
  refine ⟨Pass.none_notMem_through _ _ _ List.not_mem_nil, fun count => ?_⟩
  have hs : s.Receiving link ms := ⟨.inl rfl, rfl, tracker.follows_rebuild subscribed⟩
  exact (Owes.receiving hs).calls_eq count

end Subscription

end SeisFeed.Session
