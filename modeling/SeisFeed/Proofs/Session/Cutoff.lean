import SeisFeed.Proofs.Session.Hearing
/-!
# Streams cut off

Where a server stops sending decides what its client takes it for. Behind a message the connection
has ended in order; inside a header or a body the transfer under way was too short. A message is two
transfers, though, so a server that stops between the header of a message and its body has stopped
between transfers, and its client takes that for an end in order as well, although a message was
torn.
-/

namespace SeisFeed.Session

open Waveform (Record)
open Wire (Bytes)

namespace Parcel

variable {cut : Nat} {p q : Parcel} {ps front back : List Parcel}

/-! ### Places in a stream -/

theorem place_unique {a b : Nat} (hfront : front ++ [p] <+: ps) (hback : back ++ [q] <+: ps)
    (hplace : (stream front).length + a = (stream back).length + b) (ha : a < p.encode.length)
    (hb : b < q.encode.length) : front = back ∧ p = q ∧ a = b := by
  -- both prefixes are taken off side by side; where only one is left, the place of the other would
  -- lie within the next message
  induction ps generalizing front back with
  | nil => exact absurd hfront.length_le (by simp)
  | cons x ps ih =>
    cases front with
    | nil =>
      obtain ⟨rfl, -⟩ := List.cons_prefix_cons.1 hfront
      cases back with
      | nil =>
        obtain ⟨rfl, -⟩ := List.cons_prefix_cons.1 hback
        exact ⟨rfl, rfl, by simpa using hplace⟩
      | cons y back =>
        obtain ⟨rfl, -⟩ := List.cons_prefix_cons.1 hback
        simp only [stream_nil, stream_cons, List.length_append, List.length_nil] at hplace
        omega
    | cons y front =>
      obtain ⟨rfl, hfront'⟩ := List.cons_prefix_cons.1 hfront
      cases back with
      | nil =>
        obtain ⟨rfl, -⟩ := List.cons_prefix_cons.1 hback
        simp only [stream_nil, stream_cons, List.length_append, List.length_nil] at hplace
        omega
      | cons z back =>
        obtain ⟨rfl, hback'⟩ := List.cons_prefix_cons.1 hback
        simp only [stream_cons, List.length_append] at hplace
        have hplace : (stream front).length + a = (stream back).length + b := by omega
        obtain ⟨rfl, hrest⟩ := ih hfront' hback' hplace
        exact ⟨rfl, hrest⟩

theorem length_stream_le (h : front <+: ps) : (stream front).length ≤ (stream ps).length := by
  obtain ⟨back, rfl⟩ := h
  simp

/-! ### Cuts -/

/-- The stream was cut between two messages, or at its very start or end: all that was sent are
whole messages. -/
def CutBetween (cut : Nat) (ps : List Parcel) : Prop :=
  ∃ front, front <+: ps ∧ (stream ps).take cut = stream front

/-- The stream was cut between the header of a message and its body, which is not empty. -/
def CutBehindHeader (cut : Nat) (ps : List Parcel) : Prop :=
  ∃ front p, front ++ [p] <+: ps ∧ p.body ≠ [] ∧
    (stream ps).take cut = stream front ++ p.header.encode

/-- What is left of a stream cut off: the whole messages alone, or a part of the next one too. -/
inductive Torn (cut : Nat) (ps : List Parcel) : Prop where
  | nowhere (hsent : (stream ps).take cut = stream (wholeWithin cut ps))
      (hfault : cutFault cut ps = .disconnected)
  | inside {p : Parcel} {sent : Nat} (hmem : wholeWithin cut ps ++ [p] <+: ps) (hpos : 0 < sent)
      (hless : sent < p.encode.length)
      (hsent : (stream ps).take cut = stream (wholeWithin cut ps) ++ p.encode.take sent)
      (hfault : cutFault cut ps = Link.tornFault p sent)

theorem torn (cut : Nat) (ps : List Parcel) : Torn cut ps := by
  -- a message that was sent whole only moves the cut
  induction ps generalizing cut with
  | nil => exact .nowhere (by simp [wholeWithin]) rfl
  | cons p ps ih =>
    by_cases hfits : p.encode.length ≤ cut
    · have htake : (stream (p :: ps)).take cut =
          p.encode ++ (stream ps).take (cut - p.encode.length) := by
        rw [stream_cons, List.take_append, List.take_of_length_le hfits]
      have hwhole : wholeWithin cut (p :: ps) = p :: wholeWithin (cut - p.encode.length) ps := by
        rw [wholeWithin, if_pos hfits]
      have hfault : cutFault cut (p :: ps) = cutFault (cut - p.encode.length) ps := by
        rw [cutFault, if_pos hfits]
      cases ih (cut - p.encode.length) with
      | nowhere hsent hdisconnected =>
        refine .nowhere ?_ (hfault.trans hdisconnected)
        rw [htake, hwhole, hsent, stream_cons]
      | inside hmem hpos hless hsent htorn =>
        refine .inside ?_ hpos hless ?_ (hfault.trans htorn)
        · rw [hwhole]
          exact List.cons_prefix_cons.2 ⟨rfl, hmem⟩
        · rw [htake, hwhole, hsent, stream_cons, List.append_assoc]
    · have htake : (stream (p :: ps)).take cut = p.encode.take cut := by
        rw [stream_cons, List.take_append_of_le_length (by omega)]
      have hwhole : wholeWithin cut (p :: ps) = [] := by rw [wholeWithin, if_neg hfits]
      have hfault : cutFault cut (p :: ps) = Link.tornFault p cut := by
        rw [cutFault, if_neg hfits]
      cases cut with
      | zero =>
        refine .nowhere ?_ ?_
        · rw [hwhole]
          rfl
        · rw [hfault]
          rfl
      | succ cut =>
        have hless : cut + 1 < p.encode.length := Nat.lt_of_not_le hfits
        refine .inside ?_ (Nat.succ_pos cut) hless ?_ hfault
        · rw [hwhole]
          exact List.cons_prefix_cons.2 ⟨rfl, List.nil_prefix⟩
        · rw [htake, hwhole]
          rfl

theorem tornFault_inside {sent : Nat} (hpos : 0 < sent) (hless : sent < p.encode.length) :
    (sent = headerLength ∧ Link.tornFault p sent = .disconnected) ∨
      (sent ≠ headerLength ∧ ∃ expected actual, 0 < actual ∧ actual < expected ∧
        Link.tornFault p sent = .shortTransfer expected actual) := by
  have hlength := p.length_encode
  have hshort : ∀ (count : Nat) (ready : Bytes), ready ≠ [] →
      Link.shortFault count ready = .shortTransfer count ready.length := by
    intro count ready hready
    rw [Link.shortFault, if_neg hready]
  rcases Nat.lt_trichotomy sent headerLength with hsent | rfl | hsent
  · have htake : (p.encode.take sent).length = sent := by
      rw [List.length_take]
      omega
    have hne : p.encode.take sent ≠ [] := by
      intro hnil
      rw [hnil] at htake
      exact absurd htake.symm (Nat.pos_iff_ne_zero.1 hpos)
    refine .inr ⟨Nat.ne_of_lt hsent, headerLength, sent, hpos, hsent, ?_⟩
    rw [Link.tornFault, if_pos hsent, hshort _ _ hne, htake]
  · refine .inl ⟨rfl, ?_⟩
    rw [Link.tornFault, if_neg (Nat.lt_irrefl _), Nat.sub_self]
    rfl
  · have htake : (p.body.take (sent - headerLength)).length = sent - headerLength := by
      rw [List.length_take]
      omega
    have hne : p.body.take (sent - headerLength) ≠ [] := by
      intro hnil
      rw [hnil, List.length_nil] at htake
      omega
    refine .inr ⟨Nat.ne_of_gt hsent, p.body.length, sent - headerLength, by omega, by omega, ?_⟩
    rw [Link.tornFault, if_neg (Nat.not_lt.2 (Nat.le_of_lt hsent)), hshort _ _ hne, htake]

section

/-! A stream torn inside the message behind some whole ones. -/

variable {whole : List Parcel} {sent : Nat} (hmem : whole ++ [p] <+: ps)
  (hsent : (stream ps).take cut = stream whole ++ p.encode.take sent)
include hmem hsent

theorem not_cutBetween_of_inside (hpos : 0 < sent) (hless : sent < p.encode.length) :
    ¬ CutBetween cut ps := by
  rintro ⟨front, hfront, hbetween⟩
  have hplace : (stream front).length + 0 = (stream whole).length + sent := by
    have hlength := congrArg List.length (hbetween.symm.trans hsent)
    rwa [List.length_append, List.length_take_of_le (Nat.le_of_lt hless)] at hlength
  obtain ⟨back, rfl⟩ := hfront
  cases back with
  | nil =>
    have hle := length_stream_le hmem
    simp only [stream_append, List.append_nil, List.length_append, stream_cons, stream_nil]
      at hle hplace
    omega
  | cons q back =>
    have hq : front ++ [q] <+: front ++ q :: back := ⟨back, by simp⟩
    have hpositive : 0 < q.encode.length := by
      rw [length_encode, headerLength]
      omega
    obtain ⟨-, -, hstart⟩ := place_unique hq hmem hplace hpositive hless
    exact absurd hstart (Nat.ne_of_lt hpos)

theorem cutBehindHeader_iff_of_inside (hless : sent < p.encode.length) :
    CutBehindHeader cut ps ↔ sent = headerLength := by
  constructor
  · rintro ⟨front, q, hq, hbody, hheader⟩
    have hplace : (stream front).length + headerLength = (stream whole).length + sent := by
      have hlength := congrArg List.length (hheader.symm.trans hsent)
      rwa [List.length_append, List.length_append, length_encode_header,
        List.length_take_of_le (Nat.le_of_lt hless)] at hlength
    have hinside : headerLength < q.encode.length := by
      have hpositive := List.length_pos_iff.2 hbody
      rw [length_encode]
      omega
    exact (place_unique hq hmem hplace hinside hless).2.2.symm
  · rintro rfl
    refine ⟨whole, p, hmem, ?_, ?_⟩
    · intro hbody
      rw [length_encode, hbody] at hless
      exact absurd hless (Nat.lt_irrefl _)
    · have hlength := length_encode_header p.header
      rw [hsent, encode, List.take_append_of_le_length (Nat.le_of_eq hlength.symm),
        List.take_of_length_le (Nat.le_of_eq hlength)]

end

/-- A stream cut off ends in order where no message was torn, and also where one was torn between
its header and its body. -/
theorem cutFault_eq_disconnected_iff (cut : Nat) (ps : List Parcel) :
    cutFault cut ps = .disconnected ↔ CutBetween cut ps ∨ CutBehindHeader cut ps := by
  cases torn cut ps with
  | nowhere hsent hfault =>
    exact iff_of_true hfault (.inl ⟨_, wholeWithin_prefix cut ps, hsent⟩)
  | inside hmem hpos hless hsent hfault =>
    have hbetween := not_cutBetween_of_inside hmem hsent hpos hless
    have hheader := cutBehindHeader_iff_of_inside hmem hsent hless
    rw [hfault]
    rcases tornFault_inside hpos hless with
      ⟨hplace, htorn⟩ | ⟨hplace, expected, actual, -, -, htorn⟩
    · exact iff_of_true htorn (.inr (hheader.2 hplace))
    · rw [htorn]
      exact iff_of_false nofun (not_or.2 ⟨hbetween, fun h => hplace (hheader.1 h)⟩)

theorem cutFault_eq_shortTransfer (hbetween : ¬ CutBetween cut ps)
    (hheader : ¬ CutBehindHeader cut ps) :
    ∃ expected actual, 0 < actual ∧ actual < expected ∧
      cutFault cut ps = .shortTransfer expected actual := by
  cases torn cut ps with
  | nowhere hsent => exact absurd ⟨_, wholeWithin_prefix cut ps, hsent⟩ hbetween
  | inside hmem hpos hless hsent hfault =>
    rw [hfault]
    rcases tornFault_inside hpos hless with ⟨hplace, -⟩ | ⟨-, hshort⟩
    · exact absurd ((cutBehindHeader_iff_of_inside hmem hsent hless).2 hplace) hheader
    · exact hshort

end Parcel

open Parcel (stream wholeWithin cutFault CutBetween CutBehindHeader)

theorem Link.receiveMessage_cut (link : Link) (cut : Nat) (ps : List Parcel) :
    ∃ tail, (stream ps).take cut = stream (wholeWithin cut ps) ++ tail ∧
      receiveMessage (link.closedAfter tail) = (.error (cutFault cut ps), link.closedAfter []) := by
  cases Parcel.torn cut ps with
  | nowhere hsent hfault =>
    refine ⟨[], by rw [hsent, List.append_nil], ?_⟩
    rw [hfault]
    exact receiveMessage_closed link
  | @inside p sent _ _ hless hsent hfault =>
    refine ⟨p.encode.take sent, hsent, ?_⟩
    rw [hfault]
    exact receiveMessage_torn link hless

namespace Subscription

variable {s s' s'' : Subscription} {link : Link}

/-! ### Calls of a subscription -/

theorem calls_eq_asked (count : Nat) (s : Subscription) :
    s.calls count = (asked next tracker count s).map fun (told, s') => (told.map Prod.fst, s') := by
  induction count generalizing s with
  | zero => rfl
  | succ count ih =>
    rw [calls, asked]
    cases s.next with
    | error halt => rfl
    | ok result =>
      obtain ⟨a, s'⟩ := result
      simp only [ih]
      cases asked next tracker count s' <;> rfl

theorem calls_add {count count' : Nat} {as bs : List Next} (has : s.calls count = .ok (as, s'))
    (hbs : s'.calls count' = .ok (bs, s'')) : s.calls (count + count') = .ok (as ++ bs, s'') := by
  induction count generalizing s as with
  | zero =>
    obtain ⟨rfl, rfl⟩ := Prod.mk.inj (Except.ok.inj has)
    rwa [Nat.zero_add]
  | succ count ih =>
    rw [calls] at has
    split at has
    · cases has
    · next a s₁ hnext =>
      cases hcalls : s₁.calls count with
      | error halt =>
        rw [hcalls] at has
        cases has
      | ok result =>
        obtain ⟨rest, s₂⟩ := result
        rw [hcalls] at has
        obtain ⟨rfl, rfl⟩ := Prod.mk.inj (Except.ok.inj has)
        rw [Nat.add_right_comm]
        exact calls_succ hnext (ih hcalls)

theorem calls_closed (hphase : s.phase = .closed) :
    ∃ s', s.calls (s.ready.length + 1) = .ok (answers s.ready ++ [.ok none], s') := by
  generalize hready : s.ready = rs
  induction rs generalizing s with
  | nil => exact ⟨s, calls_ended hphase hready 1⟩
  | cons r rs ih =>
    obtain ⟨s', hcalls⟩ := ih (s := { s with ready := rs }) hphase rfl
    have hnext : s.next = .ok (.ok (some r), { s with ready := rs }) := by rw [next, hready]
    exact ⟨s', calls_succ hnext hcalls⟩

/-- To end the stream is to lay out what waits and then to hand it out like any other record. -/
theorem next_of_close (hturn : s.turn = s'.close)
    (hnext : s''.next = untilAnswer size (fun s => .ok s.turn) s) :
    s''.next = s'.finish.next := by
  have hclose : s.turn = .answer (.ok s'.finish.pop.1) s'.finish.pop.2 := hturn
  have hclosed : s'.finish.next = .ok (.ok s'.finish.pop.1, s'.finish.pop.2) := by
    have hphase : s'.finish.phase = .closed := rfl
    rw [next, pop, hphase]
    cases s'.finish.ready <;> rfl
  rw [hnext, hclosed]
  exact untilAnswer_answer (by rw [hclose])

theorem calls_congr (h : s.next = s'.next) (count : Nat) :
    s.calls (count + 1) = s'.calls (count + 1) := by
  rw [calls, calls, h]

/-! ### A stream cut off -/

/-- A subscription to a stream cut off answers what the whole messages give, and then its next turn
fails with the fault of the cut. -/
theorem heard_cut (request : StreamRequest) (tracker : Delivery.Tracker)
    (directory subscribed : Directory) (link : Link) {cut : Nat} {ps : List Parcel}
    (hunended : ∀ p ∈ wholeWithin cut ps, p.ends = false) :
    let s := opened request tracker directory subscribed (link.closedAfter ((stream ps).take cut))
    let heard := (Pass.transcript subscribed s.tracker (wholeWithin cut ps)).map Prod.fst
    ∃ s₁ s₂, s.calls heard.length = .ok (heard, s₁) ∧
      s₁.next = untilAnswer size (fun s => .ok s.turn) s₂ ∧ s₂.ready = [] ∧
      s₂.tracker = Pass.knownAfter subscribed s.tracker (wholeWithin cut ps) ∧
      s₂.turn =
        ({ s₂ with link := link.closedAfter [] } : Subscription).fail (cutFault cut ps) := by
  intro s heard
  obtain ⟨tail, hsent, hreceive⟩ := link.receiveMessage_cut cut ps
  have hlink : s.link = (link.closedAfter tail).carrying (wholeWithin cut ps) := by
    show link.closedAfter ((stream ps).take cut) = _
    rw [hsent]
    rfl
  have hhears : s.Hears (link.closedAfter tail) (wholeWithin cut ps) := ⟨.inl rfl, hlink, hunended⟩
  have hpending : s.pending (wholeWithin cut ps) =
      Pass.transcript subscribed s.tracker (wholeWithin cut ps) := pending_of_none rfl
  obtain ⟨s₁, ms₁, hasked, hhears₁, hdrop, hafter, -⟩ := hhears.asked_eq (Nat.le_refl _)
  rw [List.take_length, hpending] at hasked
  rw [List.drop_length] at hdrop
  have hheard : s.calls heard.length = .ok (heard, s₁) := by
    rw [calls_eq_asked, List.length_map, hasked]
    rfl
  obtain ⟨s₂, hnext, hready, hrest, htracker, -, -⟩ := hhears₁.next_of_silent hdrop
  have hclosed : s₂.link = link.closedAfter tail := hrest
  have hturn := (turn_of_receive hready hclosed (hclosed ▸ hreceive)).2 (cutFault cut ps) rfl
  exact ⟨s₁, s₂, hheard, hnext, hready, htracker.trans hafter, hturn⟩

/-- **Where a cut stream counts as ended.** Of a stream cut off after any number of bytes, the whole
messages are received. Then, if the cut falls between two messages or between a header and its body,
the connection counts as closed in order: a subscription hands out what still waits, and there are
no more records. If it falls anywhere else inside a message, the transfer under way was too short,
and that fault is what a subscription answers next. -/
theorem calls_cut_stream (request : StreamRequest) (tracker : Delivery.Tracker)
    (directory subscribed : Directory) (link : Link) (cut : Nat) (ps : List Parcel) :
    let l := link.closedAfter ((stream ps).take cut)
    let s := opened request tracker directory subscribed l
    let whole := wholeWithin cut ps
    let heard := (Pass.transcript subscribed s.tracker whole).map Prod.fst
    let waiting := (Pass.knownAfter subscribed s.tracker whole).flush.1
    ∃ fault, (l.receipts (whole.length + 1)).1 =
        whole.map (fun p => .ok p.message) ++ [.error fault] ∧
      (fault = .disconnected ↔ CutBetween cut ps ∨ CutBehindHeader cut ps) ∧
      (fault ≠ .disconnected → ∃ expected actual, 0 < actual ∧ actual < expected ∧
        fault = .shortTransfer expected actual) ∧
      ((∀ p ∈ whole, p.ends = false) →
        (fault = .disconnected → ∃ s', s.calls (heard.length + (waiting.length + 1)) =
          .ok (heard ++ (answers waiting ++ [.ok none]), s')) ∧
        (fault ≠ .disconnected → ∃ s', s.calls (heard.length + 1) =
          .ok (heard ++ [.error fault], s'))) := by
  intro l s whole heard waiting
  have hiff := Parcel.cutFault_eq_disconnected_iff cut ps
  have hshort : cutFault cut ps ≠ .disconnected → ∃ expected actual, 0 < actual ∧
      actual < expected ∧ cutFault cut ps = .shortTransfer expected actual := by
    intro hfault
    obtain ⟨hbetween, hheader⟩ := not_or.1 fun h => hfault (hiff.2 h)
    exact Parcel.cutFault_eq_shortTransfer hbetween hheader
  refine ⟨cutFault cut ps, Link.receipts_take link ps cut, hiff, hshort, ?_⟩
  intro hunended
  obtain ⟨s₁, s₂, hheard, hnext, hready, htracker, hturn⟩ :=
    heard_cut request tracker directory subscribed link hunended
  constructor
  · intro hfault
    let s₃ : Subscription := { s₂ with link := link.closedAfter [] }
    have hclose : s₂.turn = s₃.close := by
      rw [hturn, hfault]
      rfl
    have hlaid : s₃.finish.ready = waiting := by
      show s₂.ready ++ s₂.tracker.flush.1 = waiting
      rw [hready, List.nil_append, htracker]
    obtain ⟨s₄, hcalls⟩ := calls_closed (s := s₃.finish) rfl
    rw [hlaid, ← calls_congr (next_of_close hclose hnext)] at hcalls
    exact ⟨s₄, calls_add hheard hcalls⟩
  · intro hfault
    obtain ⟨expected, actual, -, -, hshort⟩ := hshort hfault
    let s₃ : Subscription := { s₂ with link := link.closedAfter [], phase := .closed }
    have hfail : s₂.turn = .answer (.error (cutFault cut ps)) s₃ := by
      rw [hturn, hshort]
      rfl
    have hlast : s₁.next = .ok (.error (cutFault cut ps), s₃) :=
      hnext.trans (untilAnswer_answer (by rw [hfail]))
    have hcall : s₁.calls 1 = .ok ([.error (cutFault cut ps)], s₃) := calls_succ hlast rfl
    exact ⟨s₃, calls_add hheard hcall⟩

private def report (body : Bytes) (fits : body.length ≤ 16777216 := by decide) : Parcel :=
  ⟨MessageKind.error.code, body, fits⟩

/-- A message without a body and then one with a body of four bytes. -/
private def pairOfReports : List Parcel :=
  [report [], report [1, 2, 3, 4]]

private def listener (bytes : Bytes) : Subscription :=
  let request := StreamRequest.ofPatterns "PFO.HHZ"
  opened request (newTracker request) .empty .empty
    ((Link.opened ⟨[], [], true⟩ .zero).closedAfter bytes)

/-- Two bytes into the body of the second message. -/
theorem calls_cut_stream_in_body :
    (∀ p ∈ wholeWithin 26 pairOfReports, p.ends = false) ∧
      ∃ fault expected actual, fault = SessionFault.shortTransfer expected actual ∧
        ∃ s', (listener ((stream pairOfReports).take 26)).calls 2 =
          .ok ([.error (.server ""), .error fault], s') := by
  have hunended : ∀ p ∈ wholeWithin 26 pairOfReports, p.ends = false := by decide
  let request := StreamRequest.ofPatterns "PFO.HHZ"
  obtain ⟨fault, hreceipts, -, hshort, hcalls⟩ := calls_cut_stream request (newTracker request)
    .empty .empty (Link.opened ⟨[], [], true⟩ .zero) 26 pairOfReports
  have hfault : fault = cutFault 26 pairOfReports := by
    have hlast := hreceipts.symm.trans (Link.receipts_take _ pairOfReports 26)
    exact Except.error.inj (List.singleton_inj.1 (List.append_cancel_left hlast))
  have hinside : fault ≠ .disconnected := hfault ▸ (by decide)
  obtain ⟨expected, actual, -, -, hshort⟩ := hshort hinside
  obtain ⟨s', hcalls⟩ := (hcalls hunended).2 hinside
  exact ⟨hunended, fault, expected, actual, hshort, s', hcalls⟩

/-- Right behind the header of the second message: it was torn, and counts as an end in order. -/
theorem torn_behind_header :
    ¬ CutBetween 24 pairOfReports ∧
      ((listener ((stream pairOfReports).take 24)).link.receipts 2).1 =
        [.ok ⟨⟨MessageKind.error.code, 0⟩, []⟩, .error .disconnected] ∧
      ∃ s', (listener ((stream pairOfReports).take 24)).calls 2 =
        .ok ([.error (.server ""), .ok none], s') := by
  refine ⟨?_, by decide, ?_⟩
  · have hinside : [report []] ++ [report [1, 2, 3, 4]] <+: pairOfReports := List.prefix_rfl
    have hplace : (stream pairOfReports).take 24 =
        stream [report []] ++ (report [1, 2, 3, 4]).encode.take 12 := by decide
    exact Parcel.not_cutBetween_of_inside hinside hplace (by decide) (by decide)
  · exact ⟨_, calls_succ (untilAnswer_answer rfl) (calls_succ (untilAnswer_answer rfl) rfl)⟩

end Subscription

end SeisFeed.Session
