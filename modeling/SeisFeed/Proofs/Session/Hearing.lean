import SeisFeed.Proofs.Session.Transcript
/-!
# Hearing messages

A subscription that reads a link on which messages come first hears the transcript of these
messages, whatever the link brings behind them: `pending` is the part of it that has not been
answered yet, and a call answers the first entry. Once nothing is pending a call goes on as from the
link behind the messages.
-/

namespace SeisFeed.Session

open Delivery (Tracker)
open Waveform (Record)
open Wire (Bytes)

/-- The answers of a source to some calls, each with a view of the source after it. -/
def asked {σ β : Type} (next : σ → Except Halt (Next × σ)) (view : σ → β) :
    Nat → σ → Except Halt (List (Next × β) × σ)
  | 0, s => .ok ([], s)
  | count + 1, s =>
    match next s with
    | .error halt => .error halt
    | .ok (a, s') => (asked next view count s').map fun (rest, s'') => ((a, view s') :: rest, s'')

theorem asked_succ {σ β : Type} {next : σ → Except Halt (Next × σ)} {view : σ → β} {count : Nat}
    {a : Next} {rest : List (Next × β)} {s s' s'' : σ} (hnext : next s = .ok (a, s'))
    (hasked : asked next view count s' = .ok (rest, s'')) :
    asked next view (count + 1) s = .ok ((a, view s') :: rest, s'') := by
  rw [asked, hnext]
  simp only [hasked]
  rfl

theorem asked_map {σ β γ : Type} (f : β → γ) (next : σ → Except Halt (Next × σ)) (view : σ → β)
    (count : Nat) (s : σ) :
    asked next (fun s => f (view s)) count s =
      (asked next view count s).map fun (told, s') => (told.map fun x => (x.1, f x.2), s') := by
  induction count generalizing s with
  | zero => rfl
  | succ count ih =>
    rw [asked, asked]
    cases next s with
    | error halt => rfl
    | ok result =>
      obtain ⟨a, s'⟩ := result
      simp only [ih]
      cases asked next view count s' <;> rfl

/-- Where each call answers the first of what is pending and leaves the others pending, or reading
halts, some calls answer as many of what is pending, in order, or reading halts. -/
theorem asked_or_halts {σ β : Type} {next : σ → Except Halt (Next × σ)} {view : σ → β}
    {Pending : σ → List (Next × β) → Prop} {Halts : Prop} {halt : Halt}
    (hstep : ∀ s a b rest, Pending s ((a, b) :: rest) →
      (∃ s', next s = .ok (a, s') ∧ view s' = b ∧ Pending s' rest) ∨
        Halts ∧ next s = .error halt)
    {s : σ} {pending : List (Next × β)} (h : Pending s pending) {count : Nat}
    (hcount : count ≤ pending.length) :
    (∃ s', asked next view count s = .ok (pending.take count, s') ∧
      Pending s' (pending.drop count)) ∨ Halts ∧ asked next view count s = .error halt := by
  induction count generalizing s pending with
  | zero => exact .inl ⟨s, rfl, h⟩
  | succ count ih =>
    cases pending with
    | nil => cases hcount
    | cons x rest =>
      obtain ⟨a, b⟩ := x
      rcases hstep s a b rest h with ⟨s', hnext, rfl, hrest⟩ | ⟨hhalts, hnext⟩
      · rcases ih hrest (Nat.le_of_succ_le_succ hcount) with
          ⟨s'', hasked, hlater⟩ | ⟨hhalts, hasked⟩
        · exact .inl ⟨s'', asked_succ hnext hasked, hlater⟩
        · refine .inr ⟨hhalts, ?_⟩
          rw [asked, hnext]
          simp only [hasked]
          rfl
      · exact .inr ⟨hhalts, by rw [asked, hnext]⟩

theorem asked_of_step {σ β : Type} {next : σ → Except Halt (Next × σ)} {view : σ → β}
    {Pending : σ → List (Next × β) → Prop}
    (hstep : ∀ s a b rest, Pending s ((a, b) :: rest) →
      ∃ s', next s = .ok (a, s') ∧ view s' = b ∧ Pending s' rest)
    {s : σ} {pending : List (Next × β)} (h : Pending s pending) {count : Nat}
    (hcount : count ≤ pending.length) :
    ∃ s', asked next view count s = .ok (pending.take count, s') ∧
      Pending s' (pending.drop count) := by
  have hanswers : ∀ s a b rest, Pending s ((a, b) :: rest) →
      (∃ s', next s = .ok (a, s') ∧ view s' = b ∧ Pending s' rest) ∨
        False ∧ next s = .error .undefined :=
    fun s a b rest hs => .inl (hstep s a b rest hs)
  exact (asked_or_halts hanswers h hcount).resolve_right fun hhalts => hhalts.1

theorem Parcel.length_encode (p : Parcel) : p.encode.length = headerLength + p.body.length := by
  rw [encode, List.length_append, length_encode_header]

namespace Link

/-- The link on which messages come in front of what a link still brings. -/
def carrying (rest : Link) (ms : List Parcel) : Link :=
  rest.withReady (Parcel.stream ms ++ rest.incoming.ready)

variable (rest : Link) (m : Parcel) (ms : List Parcel)

theorem receiveMessage_carrying :
    receiveMessage (rest.carrying (m :: ms)) = (.ok m.message, rest.carrying ms) := by
  have hreceive := receiveMessage_append rest m (Parcel.stream ms ++ rest.incoming.ready)
  rwa [← List.append_assoc, ← Parcel.stream_cons] at hreceive

theorem carrying_append (ms' : List Parcel) :
    rest.carrying (ms ++ ms') = (rest.carrying ms').carrying ms := by
  simp [carrying, withReady]

theorem size_carrying : (rest.carrying ms).size = (Parcel.stream ms).length + rest.size := by
  simp only [carrying, withReady, size, Incoming.size, List.length_append]
  omega

theorem length_stream_cons :
    (Parcel.stream (m :: ms)).length =
      headerLength + m.body.length + (Parcel.stream ms).length := by
  rw [Parcel.stream_cons, List.length_append, m.length_encode]

theorem size_carrying_cons_le :
    (rest.carrying ms).size + headerLength ≤ (rest.carrying (m :: ms)).size := by
  rw [size_carrying, size_carrying, length_stream_cons]
  omega

theorem size_carrying_lt : (rest.carrying ms).size < (rest.carrying (m :: ms)).size :=
  Nat.lt_of_lt_of_le (Nat.lt_add_of_pos_right (by decide)) (size_carrying_cons_le rest m ms)

theorem readable_carrying : (rest.carrying (m :: ms)).incoming.readable = true := by
  have hready : (rest.carrying (m :: ms)).incoming.ready ≠ [] := by
    intro hnil
    have hlength := congrArg List.length hnil
    simp only [carrying, withReady, List.length_append, length_stream_cons, headerLength,
      List.length_nil] at hlength
    omega
  simp [Incoming.readable, hready]

end Link

namespace Subscription

variable {rest : Link} {s : Subscription} {m : Parcel} {ms : List Parcel}

/-! ### Turns -/

theorem turn_receive {result : Except SessionFault Message} {link : Link} (hready : s.ready = [])
    (hwait : s.mustWait = false) (hreceive : Link.receiveMessage s.link = (result, link)) :
    s.turn =
      match result with
      | .ok message => ({ s with link := link } : Subscription).handle message
      | .error fault => ({ s with link := link } : Subscription).fail fault := by
  rw [turn, hready]
  simp only [hwait, hreceive]
  cases result <;> rfl

theorem turn_carrying (hready : s.ready = []) (hlink : s.link = rest.carrying (m :: ms)) :
    s.turn = ({ s with link := rest.carrying ms } : Subscription).handle m.message := by
  have hwait : s.mustWait = false := by simp [mustWait, hlink, Link.readable_carrying]
  exact turn_receive hready hwait (hlink ▸ Link.receiveMessage_carrying rest m ms)

/-- Reading changes nothing of what a subscription is for. -/
structure Alike (s s' : Subscription) : Prop where
  subscribed : s'.subscribed = s.subscribed
  request : s'.request = s.request

theorem Alike.refl (s : Subscription) : s.Alike s := ⟨rfl, rfl⟩

theorem Alike.trans {s s' s'' : Subscription} (h : s.Alike s') (h' : s'.Alike s'') : s.Alike s'' :=
  ⟨h'.subscribed.trans h.subscribed, h'.request.trans h.request⟩

theorem alike_handle {s' : Subscription} {message : Message} (h : s.handle message = .again s') :
    s.Alike s' ∧ s'.phase = s.phase ∧ s'.link = s.link := by
  have haccept : ∀ result, s.Alike (s.accept result) ∧ (s.accept result).phase = s.phase ∧
      (s.accept result).link = s.link := by
    intro result
    obtain ⟨hlink, hphase, hsubscribed⟩ := s.accept_frame result
    refine ⟨⟨hsubscribed, ?_⟩, hphase, hlink⟩
    cases result with
    | ok r => rfl
    | error fault =>
      rw [accept_error]
      split <;> rfl
  rw [handle] at h
  split at h
  · cases h
    exact haccept _
  · cases h
    exact haccept _
  · cases h
  · cases h
  · cases h
    exact ⟨.refl s, rfl, rfl⟩

/-- A message that does not end the stream is answered by its fault, or the subscription goes on
with its records laid out. -/
theorem handle_told (hready : s.ready = []) (hends : m.ends = false) :
    (∃ a, s.handle m.message = .answer a s ∧
        Pass.told s.subscribed s.tracker m = [(a, s.tracker)] ∧
        Pass.known s.subscribed s.tracker m = s.tracker) ∨
      ∃ s', s.handle m.message = .again s' ∧ s.Alike s' ∧ s'.phase = s.phase ∧ s'.link = s.link ∧
        (answers s'.ready).map (fun a => (a, s'.tracker)) =
          Pass.told s.subscribed s.tracker m ∧
        s'.tracker = Pass.known s.subscribed s.tracker m ∧ s'.size ≤ s.size + 1 := by
  have hhandled := handled s m
  generalize hturn : s.handle m.message = outcome at hhandled
  cases hhandled with
  | close hclose => exact absurd (hclose.symm.trans hends) (by decide)
  | @fault fault _ hpass =>
    have hknown : Pass.known s.subscribed s.tracker m = s.tracker :=
      congrArg Pass.tracker (hpass ⟨[], s.tracker, 0⟩)
    refine .inl ⟨.error fault, rfl, ?_, hknown⟩
    rw [Pass.told, hpass, hknown]
    rfl
  | @again s' _ hsubscribed hahead _ hsize =>
    obtain ⟨halike, hphase, hlink⟩ := alike_handle hturn
    obtain ⟨hitems, htracker⟩ := Pass.message_from s.subscribed m s.ahead
    have hnone : s.ahead.items = [] := by simp [ahead, hready, answers]
    rw [← hahead] at hitems htracker
    rw [hnone, List.nil_append] at hitems
    have hknown : s'.tracker = Pass.known s.subscribed s.tracker m := htracker
    refine .inr ⟨s', rfl, halike, hphase, hlink, ?_, hknown, hsize⟩
    have hanswers : answers s'.ready = (Pass.told s.subscribed s.tracker m).map Prod.fst := hitems
    rw [hanswers, hknown, Pass.told, List.map_map, List.map_map]
    rfl

/-! ### What is pending -/

/-- The part of the transcript that a subscription has still to answer: records laid out, and what
the messages will give. -/
def pending (s : Subscription) (ms : List Parcel) : List (Next × Tracker) :=
  (answers s.ready).map (fun a => (a, s.tracker)) ++ Pass.transcript s.subscribed s.tracker ms

/-- A subscription that is being read, and has messages in front of it that do not end its
stream. -/
structure Hears (rest : Link) (s : Subscription) (ms : List Parcel) : Prop where
  phase : s.phase = .subscribed ∨ s.phase = .streaming
  link : s.link = rest.carrying ms
  unended : ∀ m ∈ ms, m.ends = false

/-- What reading comes to: the first entry that is pending is answered, and the others remain; or
nothing is pending, and reading goes on behind the messages. -/
inductive Reached (rest : Link) (s : Subscription) (ms : List Parcel) : Prop where
  | answer {a : Next} {t : Tracker} {later : List (Next × Tracker)} {s' : Subscription}
      {ms' : List Parcel} (hpending : s.pending ms = (a, t) :: later)
      (hturns : untilAnswer size (fun s => .ok s.turn) s = .ok (a, s')) (htracker : s'.tracker = t)
      (hhears : s'.Hears rest ms') (hlater : s'.pending ms' = later)
      (hafter : Pass.knownAfter s'.subscribed s'.tracker ms' =
        Pass.knownAfter s.subscribed s.tracker ms) (halike : s.Alike s')
  | behind {s' : Subscription} (hpending : s.pending ms = [])
      (hturns : untilAnswer size (fun s => .ok s.turn) s =
        untilAnswer size (fun s => .ok s.turn) s')
      (hready : s'.ready = []) (hlink : s'.link = rest)
      (htracker : s'.tracker = Pass.knownAfter s.subscribed s.tracker ms)
      (hsize : s'.size ≤ s.size) (halike : s.Alike s')

theorem pending_of_ready {r : Record} {rs : List Record} (hready : s.ready = r :: rs) :
    s.pending ms =
      (.ok (some r), s.tracker) :: ({ s with ready := rs } : Subscription).pending ms := by
  simp [pending, hready, answers]

theorem pending_of_none (hready : s.ready = []) :
    s.pending ms = Pass.transcript s.subscribed s.tracker ms := by
  simp [pending, hready, answers]

theorem Hears.reached_of_ready {r : Record} {rs : List Record} (h : s.Hears rest ms)
    (hready : s.ready = r :: rs) : Reached rest s ms :=
  .answer (pending_of_ready hready) (untilAnswer_answer (turn_ready hready)) rfl
    ⟨h.phase, h.link, h.unended⟩ rfl rfl ⟨rfl, rfl⟩

theorem Reached.of_again {s' : Subscription} {ms' : List Parcel} (h : Reached rest s' ms')
    (hagain : untilAnswer size (fun s => .ok s.turn) s = untilAnswer size (fun s => .ok s.turn) s')
    (hpending : s.pending ms = s'.pending ms')
    (hafter : Pass.knownAfter s'.subscribed s'.tracker ms' =
      Pass.knownAfter s.subscribed s.tracker ms)
    (hless : s'.size < s.size) (halike : s.Alike s') : Reached rest s ms := by
  cases h with
  | answer hpend hturns htracker hhears hlater hknown halike' =>
    exact .answer (hpending.trans hpend) (hagain.trans hturns) htracker hhears hlater
      (hknown.trans hafter) (halike.trans halike')
  | behind hpend hturns hready hlink htracker hsize halike' =>
    exact .behind (hpending.trans hpend) (hagain.trans hturns) hready hlink
      (htracker.trans hafter) (Nat.le_of_lt (Nat.lt_of_le_of_lt hsize hless))
      (halike.trans halike')

theorem Hears.reached (h : s.Hears rest ms) : Reached rest s ms := by
  -- on the messages: a turn hands out what is laid out, or takes the next of them
  induction ms generalizing s with
  | nil =>
    cases hready : s.ready with
    | nil =>
      exact .behind (pending_of_none hready) rfl hready h.link rfl (Nat.le_refl _) (.refl s)
    | cons r rs => exact h.reached_of_ready hready
  | cons m ms ih =>
    cases hready : s.ready with
    | cons r rs => exact h.reached_of_ready hready
    | nil =>
      let taken : Subscription := { s with link := rest.carrying ms }
      have hturn : s.turn = taken.handle m.message := turn_carrying hready h.link
      have hpending : s.pending (m :: ms) = Pass.told s.subscribed s.tracker m ++
          Pass.transcript s.subscribed (Pass.known s.subscribed s.tracker m) ms :=
        pending_of_none hready
      have hunended : ∀ x ∈ ms, x.ends = false := fun x hx =>
        h.unended x (List.mem_cons_of_mem m hx)
      rcases handle_told (s := taken) hready (h.unended m List.mem_cons_self) with
        ⟨a, hhandle, htold, hknown⟩ | ⟨s', hhandle, halike, hphase, hlink, htold, hknown, hgrown⟩
      · -- the message is answered at once
        have hfirst : s.pending (m :: ms) =
            (a, s.tracker) :: Pass.transcript s.subscribed s.tracker ms := by
          rw [hpending, htold, hknown]
          rfl
        have hturns : untilAnswer size (fun s => .ok s.turn) s = .ok (a, taken) :=
          untilAnswer_answer (by rw [hturn, hhandle])
        have hafter : Pass.knownAfter taken.subscribed taken.tracker ms =
            Pass.knownAfter s.subscribed s.tracker (m :: ms) := by
          rw [Pass.knownAfter_cons, hknown]
        exact .answer hfirst hturns rfl ⟨h.phase, rfl, hunended⟩ (pending_of_none hready) hafter
          ⟨rfl, rfl⟩
      · -- its records are laid out, and reading goes on
        have hless : s'.size < s.size := by
          have hshorter := Link.size_carrying_cons_le rest m ms
          rw [← h.link, headerLength] at hshorter
          simp only [size, taken] at hgrown ⊢
          omega
        have hhears : s'.Hears rest ms := ⟨hphase ▸ h.phase, hlink, hunended⟩
        refine (ih hhears).of_again (untilAnswer_again (by rw [hturn, hhandle]) hless) ?_ ?_ hless
          ⟨halike.subscribed, halike.request⟩
        · rw [hpending, pending, htold, hknown, halike.subscribed]
        · rw [hknown, halike.subscribed]
          rfl

/-! ### Calls -/

theorem Hears.next_eq (h : s.Hears rest ms) :
    ∃ s₁, s.next = untilAnswer size (fun s => .ok s.turn) s₁ ∧ s₁.Hears rest ms ∧
      s₁.pending ms = s.pending ms ∧ s₁.tracker = s.tracker ∧ s₁.size = s.size ∧ s.Alike s₁ := by
  cases hready : s.ready with
  | cons r rs =>
    refine ⟨s, ?_, h, rfl, rfl, rfl, .refl s⟩
    rw [untilAnswer_answer (turn_ready hready), next, hready]
  | nil =>
    refine ⟨{ s with phase := .streaming }, ?_, ⟨.inr rfl, h.link, h.unended⟩, rfl, rfl, rfl,
      ⟨rfl, rfl⟩⟩
    rw [next, hready]
    rcases h.phase with hphase | hphase
    · rw [hphase]
    · rw [hphase]

theorem Hears.next_of_pending {a : Next} {t : Tracker} {later : List (Next × Tracker)}
    (h : s.Hears rest ms) (hpending : s.pending ms = (a, t) :: later) :
    ∃ s' ms', s.next = .ok (a, s') ∧ s'.tracker = t ∧ s'.Hears rest ms' ∧ s'.pending ms' = later ∧
      Pass.knownAfter s'.subscribed s'.tracker ms' = Pass.knownAfter s.subscribed s.tracker ms ∧
      s.Alike s' := by
  obtain ⟨s₁, hnext, hhears, hsame, htracker, -, halike⟩ := h.next_eq
  cases hhears.reached with
  | @answer a' t' later' s' ms' hpending' hturns htracker' hhears' hlater hafter halike' =>
    have heq : (a', t') :: later' = (a, t) :: later :=
      hpending'.symm.trans (hsame.trans hpending)
    obtain ⟨hhead, rfl⟩ := List.cons.inj heq
    obtain ⟨rfl, rfl⟩ := Prod.mk.inj hhead
    refine ⟨s', ms', hnext.trans hturns, htracker', hhears', hlater, ?_, halike.trans halike'⟩
    rw [hafter, htracker, halike.subscribed]
  | behind hnone =>
    exact absurd (hnone.symm.trans (hsame.trans hpending)) (List.cons_ne_nil _ _).symm

theorem Hears.next_of_silent (h : s.Hears rest ms) (hpending : s.pending ms = []) :
    ∃ s', s.next = untilAnswer size (fun s => .ok s.turn) s' ∧ s'.ready = [] ∧ s'.link = rest ∧
      s'.tracker = Pass.knownAfter s.subscribed s.tracker ms ∧ s'.size ≤ s.size ∧ s.Alike s' := by
  obtain ⟨s₁, hnext, hhears, hsame, htracker, hsize, halike⟩ := h.next_eq
  cases hhears.reached with
  | answer hpending' =>
    exact absurd (hpending'.symm.trans (hsame.trans hpending)) (List.cons_ne_nil _ _)
  | @behind s' _ hturns hready hlink htracker' hsize' halike' =>
    refine ⟨s', hnext.trans hturns, hready, hlink, ?_, hsize ▸ hsize', halike.trans halike'⟩
    rw [htracker', htracker, halike.subscribed]

theorem Hears.asked_eq (h : s.Hears rest ms) {count : Nat}
    (hcount : count ≤ (s.pending ms).length) :
    ∃ s' ms', asked next tracker count s = .ok ((s.pending ms).take count, s') ∧
      s'.Hears rest ms' ∧ s'.pending ms' = (s.pending ms).drop count ∧
      Pass.knownAfter s'.subscribed s'.tracker ms' = Pass.knownAfter s.subscribed s.tracker ms ∧
      s.Alike s' := by
  let Pending (s' : Subscription) (later : List (Next × Tracker)) : Prop :=
    ∃ ms', s'.Hears rest ms' ∧ s'.pending ms' = later ∧
      Pass.knownAfter s'.subscribed s'.tracker ms' = Pass.knownAfter s.subscribed s.tracker ms ∧
      s.Alike s'
  have hstep : ∀ s' a t later, Pending s' ((a, t) :: later) →
      ∃ s'', s'.next = .ok (a, s'') ∧ s''.tracker = t ∧ Pending s'' later := by
    rintro s' a t later ⟨ms', hhears, hpending, hafter, halike⟩
    obtain ⟨s'', ms'', hnext, htracker, hhears', hlater, hafter', halike'⟩ :=
      hhears.next_of_pending hpending
    exact ⟨s'', hnext, htracker, ms'', hhears', hlater, hafter'.trans hafter, halike.trans halike'⟩
  have hstart : Pending s (s.pending ms) := ⟨ms, h, rfl, rfl, .refl s⟩
  obtain ⟨s', hasked, ms', hhears, hlater, hafter, halike⟩ := asked_of_step hstep hstart hcount
  exact ⟨s', ms', hasked, hhears, hlater, hafter, halike⟩

end Subscription

end SeisFeed.Session
