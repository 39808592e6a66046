import SeisFeed.Proofs.Session.Retrieval
import SeisFeed.Proofs.Waveform.Trimming
/-!
# Calls on a session with an archive

Once a session is logged in its caller may list and select channels, ask for the times held, request
data, read records and end the session, in any order and whatever the archive sends. `Made` tells
what each of these calls comes to: what it answers, what it sends, and where it leaves the session.
Reading a record is a loop over messages; `Fetched` tells what it comes to by the messages it heard.
-/

namespace SeisFeed.Session

open Time (Window)
open Waveform (PacketFault Record)
open Wire (Bytes)

/-! ### Records of a reply -/

theorem key_mem_of_record? {d : Directory} {p : Parcel} {r : Record} (h : p.record? d = some r) :
    r.key ∈ d.keys := by
  have hok : ∀ {result : Except PacketFault Record}, result.toOption = some r → result = .ok r := by
    intro result h
    cases result with
    | error fault => cases h
    | ok x => rw [Option.some.inj h]
  rw [Parcel.record?] at h
  split at h
  · exact key_mem_of_decodeCompressed (hok h)
  · exact key_mem_of_decodeDecompressed (hok h)
  · cases h

theorem eq_trim_of_cutTo {window : Window} {decoded r : Record}
    (h : cutTo window decoded = some r) :
    r = decoded.trim (Archive.startTime window) (Archive.stopTime window) ∧ r.samples ≠ [] ∧
      0 < r.sampleRate ∧ r.key = decoded.key := by
  rw [cutTo] at h
  split at h
  · next hsome =>
    obtain rfl := Option.some.inj h
    have hsamples := hsome
    rw [Record.hasSamples, Bool.not_eq_true', List.isEmpty_eq_false_iff] at hsamples
    refine ⟨rfl, hsamples, ?_⟩
    rcases decoded.trim_cases (Archive.startTime window) (Archive.stopTime window) with
      hempty | ⟨hrate, first, last, -, -, hslice⟩
    · rw [hempty] at hsamples
      exact absurd rfl hsamples
    · rw [hslice]
      exact ⟨hrate, rfl⟩
  · cases h

/-! ### Calls -/

/-- What a caller may do with a session. -/
inductive Call where
  | channelList
  | select (patterns network : String)
  | precisList (type : DataType)
  | requestData (key : UInt32) (window : Window)
  | next
  | terminate (reason : ShutdownReason) (text : String)

namespace Call

/-- Whether a call may ask the archive what there is. -/
def asks : Call → Bool
  | channelList | select .. | precisList _ => true
  | requestData .. | next | terminate .. => false

end Call

namespace Archive

/-- What is left of an answer when only records and faults are looked at. -/
def plain {α : Type} : Except SessionFault α × Archive → Next × Archive
  | (result, a) => (result.map fun _ => none, a)

def call (a : Archive) : Call → Except Halt (Next × Archive)
  | .channelList => .ok (plain a.channelList)
  | .select patterns network => .ok (plain (a.select patterns network))
  | .precisList type => .ok (plain (a.precisList type))
  | .requestData key window => .ok (plain (a.requestData key window))
  | .next => a.next
  | .terminate reason text => .ok (plain (a.terminate reason text))

variable {a b a' : Archive} {window : Window} {p : Parcel} {ps : List Parcel} {rest stop : Link}

/-! ### Reading a record -/

theorem Alike.trans {a'' : Archive} (h : a.Alike a') (h' : a'.Alike a'') : a.Alike a'' where
  link := h'.link.trans h.link
  window := h'.window.trans h.window
  selected := h'.selected.trans h.selected
  phase := by
    rcases h'.phase with hphase | hphase
    · rw [hphase]
      exact h.phase
    · exact .inr hphase

/-- A session goes over messages that do not say that the archive is ready. -/
structure Passes (a : Archive) (ps : List Parcel) (b : Archive) : Prop where
  link : a.link = b.link.carrying ps
  quiet : ∀ p ∈ ps, MessageKind.ofCode? p.code ≠ some .ready
  alike : Alike { a with link := b.link } b

theorem Passes.refl (a : Archive) : a.Passes [] a :=
  ⟨rfl, fun _ hp => absurd hp List.not_mem_nil, rfl, rfl, rfl, .inl rfl⟩

theorem Passes.concat (h : a.Passes ps b) (hlink : b.link = rest.carrying [p])
    (hquiet : MessageKind.ofCode? p.code ≠ some .ready)
    (halike : Alike { b with link := rest } a') : a.Passes (ps ++ [p]) a' where
  link := by
    rw [h.link, hlink, Link.carrying_append, halike.link]
  quiet q hq := by
    rcases List.mem_append.1 hq with hq | hq
    · exact h.quiet q hq
    · rw [List.mem_singleton.1 hq]
      exact hquiet
  alike := by
    have hbefore : Alike { a with link := a'.link } { b with link := a'.link } :=
      ⟨rfl, h.alike.window, h.alike.selected, h.alike.phase⟩
    exact hbefore.trans ⟨rfl, halike.window, halike.selected, halike.phase⟩

theorem Passes.sent_eq (h : a.Passes ps b) :
    b.link.sent = a.link.sent ∧ b.link.writable = a.link.writable := by
  rw [h.link]
  exact ⟨rfl, rfl⟩

theorem Passes.heard_eq (h : a.Passes ps b) (hstop : stop.size ≤ b.link.size) :
    Link.heard stop a.link = ps.map Parcel.message ++ Link.heard stop b.link := by
  rw [h.link, Link.heard_carrying ps hstop]

theorem Passes.readiesHeard_eq (h : a.Passes ps b) (hstop : stop.size ≤ b.link.size) :
    Link.readiesHeard stop a.link = Link.readiesHeard stop b.link := by
  have hquiet : (ps.map Parcel.message).countP (fun m => m.header.kind? = some .ready) = 0 := by
    rw [List.countP_eq_zero]
    intro m hm
    obtain ⟨p, hp, rfl⟩ := List.mem_map.1 hm
    exact mt of_decide_eq_true (h.quiet p hp)
  rw [Link.readiesHeard, h.heard_eq hstop, List.countP_append, hquiet, Nat.zero_add,
    Link.readiesHeard]

/-- What a call for the next record comes to while a request is under way: the record that the last
message holds, or that the archive is ready, or the archive's own fault, or that of the link. -/
inductive Fetched (window : Window) (a : Archive) : Next → Archive → Prop where
  | record {r : Record} {a' : Archive} {ps : List Parcel} {p : Parcel}
      (hpasses : a.Passes (ps ++ [p]) a')
      (hrecord : (p.record? a.selected).bind (cutTo window) = some r) :
      Fetched window a (.ok (some r)) a'
  | ready {b : Archive} {rest : Link} {ps : List Parcel} {p : Parcel} (hpasses : a.Passes ps b)
      (hlink : b.link = rest.carrying [p]) (hready : MessageKind.ofCode? p.code = some .ready) :
      Fetched window a (.ok none) { b with link := rest, phase := .ready, window := none }
  | refused {a' : Archive} {ps : List Parcel} (text : String) (hpasses : a.Passes ps a') :
      Fetched window a (.error (.server text)) a'
  | lost {fault : SessionFault} {b : Archive} {rest : Link} {ps : List Parcel}
      (hpasses : a.Passes ps b) (hreceive : Link.receiveMessage b.link = (.error fault, rest))
      (hfatal : fault.isConnectionFatal = true) :
      Fetched window a (.error fault) { b with link := rest, phase := .closed }

theorem Fetched.sent_eq {answer : Next} (h : Fetched window a answer a') :
    a'.link.sent = a.link.sent := by
  cases h with
  | record hpasses => exact hpasses.sent_eq.1
  | refused _ hpasses => exact hpasses.sent_eq.1
  | ready hpasses hlink =>
    have hsent := hpasses.sent_eq.1
    rwa [hlink] at hsent
  | lost hpasses hreceive => exact (Link.receiveMessage_frame hreceive).1.trans hpasses.sent_eq.1

theorem fetched_turn (hpasses : a.Passes ps b) (hwindow : a.window = some window) :
    (∃ answer a', b.turn = .answer answer a' ∧ Fetched window a answer a') ∨
      ∃ b' ps', b.turn = .again b' ∧ a.Passes ps' b' ∧ b'.size < b.size := by
  rcases hreceive : Link.receiveMessage b.link with ⟨fault | m, rest⟩
  · have hfatal : fault.isConnectionFatal = true :=
      Link.failsForGood_receiveMessage b.link fault (by rw [hreceive])
    refine .inl ⟨_, _, ?_, .lost hpasses hreceive hfatal⟩
    rw [turn, hreceive]
    simp [hfatal]
  obtain ⟨p, rfl, hlink⟩ := Link.eq_of_receiveMessage hreceive
  have hturn : b.turn = ({ b with link := rest } : Archive).handle p.message := turn_carrying hlink
  have hkind : p.message.header.kind? = MessageKind.ofCode? p.code := rfl
  by_cases hready : MessageKind.ofCode? p.code = some .ready
  · refine .inl ⟨_, _, ?_, .ready hpasses hlink hready⟩
    rw [hturn, handle, hkind, hready]
  by_cases herror : MessageKind.ofCode? p.code = some .error
  · have hpassed : a.Passes (ps ++ [p]) { b with link := rest } :=
      hpasses.concat hlink hready ⟨rfl, rfl, rfl, .inl rfl⟩
    refine .inl ⟨_, _, ?_, .refused (messageText p.body) hpassed⟩
    rw [hturn, handle, hkind, herror]
    rfl
  have hhandled := handled (a := { b with link := rest }) (hpasses.alike.window.trans hwindow)
    (m := p) ⟨hready, herror⟩
  rw [← hturn] at hhandled
  generalize b.turn = outcome at hhandled
  cases hhandled with
  | record hrecord halike =>
    rw [show b.selected = a.selected from hpasses.alike.selected] at hrecord
    exact .inl ⟨_, _, rfl, .record (hpasses.concat hlink hready halike) hrecord⟩
  | @nothing b' _ halike =>
    refine .inr ⟨_, _, rfl, hpasses.concat hlink hready halike, ?_⟩
    rw [size, size, halike.link, hlink]
    exact Link.size_carrying_lt rest p []

theorem fetched_untilAnswer (hwindow : a.window = some window) :
    ∃ answer a', untilAnswer size (fun a => .ok a.turn) a = .ok (answer, a') ∧
      Fetched window a answer a' := by
  refine untilAnswer_total (P := fun b => ∃ ps, a.Passes ps b) (fun b ⟨ps, hpasses⟩ => ?_)
    ⟨[], Passes.refl a⟩
  rcases fetched_turn hpasses hwindow with ⟨answer, a', hturn, h⟩ | ⟨b', ps', hturn, h, hsize⟩
  · exact .inl ⟨answer, a', congrArg Except.ok hturn, h⟩
  · exact .inr ⟨b', congrArg Except.ok hturn, ⟨ps', h⟩, hsize⟩

/-! ### What each call comes to -/

/-- A session has sent a request to be told what there is. -/
structure Asked (r : Request) (a a' : Archive) : Prop where
  sent : a'.link.sent = a.link.sent ++ [r.encode]
  writable : a'.link.writable = true
  phase : a'.phase = a.phase
  window : a'.window = a.window

/-- What a call on a session comes to. -/
inductive Made (a : Archive) : Call → Next → Archive → Prop where
  /-- Nothing passes over the link: the call is refused, or answered from what is known. -/
  | idle {call : Call} {answer : Next} {a' : Archive} (hlink : a'.link = a.link)
      (hphase : a'.phase = a.phase) (hwindow : a'.window = a.window)
      (hrecord : ∀ r, answer ≠ .ok (some r))
      (hfault : ∀ fault, answer = .error fault → fault.isConnectionFatal = false) :
      Made a call answer a'
  /-- The archive is asked what there is, and may have answered. -/
  | asked {call : Call} {answer : Next} {a' : Archive} {r : Request} (hasks : call.asks = true)
      (hready : a.phase = .ready)
      (hkind : r.kind = .channelListRequest ∨ r.kind = .precisListRequest)
      (hasked : Asked r a a') (hrecord : ∀ r, answer ≠ .ok (some r)) : Made a call answer a'
  | requested {key : UInt32} {window : Window} {a' : Archive} (hready : a.phase = .ready)
      (hphase : a'.phase = .requesting) (hwindow : a'.window = some window)
      (hsent : a'.link.sent = a.link.sent ++ [(dataRequest window key).encode])
      (hwritable : a'.link.writable = true) : Made a (.requestData key window) (.ok none) a'
  | fetched {window : Window} {answer : Next} {a' : Archive}
      (hphase : a.phase = .requesting ∨ a.phase = .receiving) (hwindow : a.window = some window)
      (hfetched : Fetched window a answer a') : Made a .next answer a'
  | ended {reason : ShutdownReason} {text : String} {a' : Archive} (hopen : a.phase ≠ .closed)
      (hphase : a'.phase = .closed)
      (hsent : a'.link.sent = a.link.sent ++ [(Request.terminateSubscription reason text).encode]) :
      Made a (.terminate reason text) (.ok none) a'

/-- What keeps a session going: unless it is closed the client can send, and while a request is
under way its window is known. -/
structure Going (a : Archive) : Prop where
  writable : a.phase ≠ .closed → a.link.writable = true
  window : a.phase = .requesting ∨ a.phase = .receiving → ∃ window, a.window = some window

theorem fst_plain_ne {α : Type} (outcome : Except SessionFault α × Archive) (r : Record) :
    (plain outcome).1 ≠ .ok (some r) := by
  obtain ⟨fault | value, a⟩ := outcome
  · exact fun h => by cases h
  · exact fun h => by cases h

theorem made_refused (call : Call) (expected : String) :
    Made a call (.error (a.wrongPhase expected)) a := by
  refine .idle rfl rfl rfl (fun _ h => by cases h) fun fault h => ?_
  obtain rfl := Except.error.inj h
  rfl

theorem asked_ask (h : a.link.writable = true) (r : Request) (kind : MessageKind) :
    Asked r a (a.ask r kind).2 := by
  obtain ⟨link, hsend, hsent, hwritable⟩ := Link.sendRequest_of_writable h r
  obtain ⟨ready, -, hlink⟩ := Link.draws_expect kind link
  have hask : a.ask r kind =
      ((Link.expect kind link).1, { a with link := link.withReady ready }) := by
    rw [ask, Link.bind_apply, hsend, ← hlink]
    rfl
  rw [hask]
  exact ⟨hsent, hwritable, rfl, rfl⟩

theorem Asked.later {r : Request} {a'' : Archive} (h : Asked r a a') (hlink : a''.link = a'.link)
    (hphase : a''.phase = a'.phase) (hwindow : a''.window = a'.window) : Asked r a a'' :=
  ⟨hlink ▸ h.sent, hlink ▸ h.writable, hphase.trans h.phase, hwindow.trans h.window⟩

theorem asked_channelList (hready : a.phase = .ready) (h : a.link.writable = true) :
    Asked .channelListRequest a a.channelList.2 := by
  have hask := asked_ask h .channelListRequest .channelList
  rw [channelList, if_pos hready]
  generalize a.ask .channelListRequest .channelList = outcome at hask ⊢
  obtain ⟨fault | body, a'⟩ := outcome
  · exact hask
  · dsimp only
    split
    · exact hask
    · exact hask.later rfl rfl rfl

theorem asked_precisList (hready : a.phase = .ready) (h : a.link.writable = true)
    (type : DataType) :
    Asked (.precisListRequest (-1) (Int32.ofNat type.code.toNat) (-1)) a (a.precisList type).2 := by
  have hask := asked_ask h (.precisListRequest (-1) (Int32.ofNat type.code.toNat) (-1)) .precisList
  rw [precisList, if_pos hready]
  generalize a.ask _ .precisList = outcome at hask ⊢
  obtain ⟨fault | body, a'⟩ := outcome
  · exact hask
  · dsimp only
    split <;> exact hask

theorem Going.writable_of_ready (h : a.Going) (hready : a.phase = .ready) :
    a.link.writable = true :=
  h.writable (by simp [hready])

theorem made_channelList {call : Call} (hasks : call.asks = true) (h : a.Going) :
    Made a call (plain a.channelList).1 (plain a.channelList).2 := by
  by_cases hready : a.phase = .ready
  · exact .asked hasks hready (.inl rfl) (asked_channelList hready (h.writable_of_ready hready))
      (fst_plain_ne _)
  · rw [channelList, if_neg hready]
    exact made_refused call "Ready"

theorem made_precisList (h : a.Going) (type : DataType) :
    Made a (.precisList type) (plain (a.precisList type)).1 (plain (a.precisList type)).2 := by
  by_cases hready : a.phase = .ready
  · exact .asked rfl hready (.inr rfl) (asked_precisList hready (h.writable_of_ready hready) type)
      (fst_plain_ne _)
  · rw [precisList, if_neg hready]
    exact made_refused (.precisList type) "Ready"

theorem config_of_selectChannels {d : Directory} {patterns network : String} {fault : SessionFault}
    (h : selectChannels d patterns network = .error fault) : ∃ reason, fault = .config reason := by
  rw [selectChannels] at h
  split at h
  · exact ⟨_, (Except.error.inj h).symm⟩
  · split at h
    · exact ⟨_, (Except.error.inj h).symm⟩
    · cases h

/-- Narrowing the selection is up to the session alone, and fails only for what it was asked. -/
theorem narrow_frame (a : Archive) (patterns network : String) :
    (a.narrow patterns network).2.link = a.link ∧ (a.narrow patterns network).2.phase = a.phase ∧
      (a.narrow patterns network).2.window = a.window ∧
      ∀ fault, (plain (a.narrow patterns network)).1 = .error fault →
        fault.isConnectionFatal = false := by
  rw [narrow]
  cases hselect : selectChannels a.directory patterns network with
  | error fault =>
    refine ⟨rfl, rfl, rfl, fun fault' h => ?_⟩
    obtain ⟨reason, rfl⟩ := config_of_selectChannels hselect
    obtain rfl := Except.error.inj h
    rfl
  | ok selected => exact ⟨rfl, rfl, rfl, fun _ h => by cases h⟩

/-- What a session does on its own after it has asked the archive changes nothing of what the call
comes to. -/
theorem Made.later {call : Call} {answer answer' : Next} {a'' : Archive} (h : Made a call answer a')
    (hasks : call.asks = true) (hlink : a''.link = a'.link) (hphase : a''.phase = a'.phase)
    (hwindow : a''.window = a'.window) (hrecord : ∀ r, answer' ≠ .ok (some r))
    (hfault : ∀ fault, answer' = .error fault → fault.isConnectionFatal = false) :
    Made a call answer' a'' := by
  cases h with
  | idle hlink' hphase' hwindow' =>
    exact .idle (hlink.trans hlink') (hphase.trans hphase') (hwindow.trans hwindow') hrecord hfault
  | asked hasks hready hkind hasked =>
    exact .asked hasks hready hkind (hasked.later hlink hphase hwindow) hrecord
  | requested => cases hasks
  | fetched => cases hasks
  | ended => cases hasks

theorem made_select (h : a.Going) (patterns network : String) :
    Made a (.select patterns network) (plain (a.select patterns network)).1
      (plain (a.select patterns network)).2 := by
  have hnarrow : ∀ {answer a'}, Made a (.select patterns network) answer a' →
      Made a (.select patterns network) (plain (a'.narrow patterns network)).1
        (plain (a'.narrow patterns network)).2 := by
    intro answer a' hmade
    obtain ⟨hlink, hphase, hwindow, hfault⟩ := a'.narrow_frame patterns network
    exact hmade.later rfl hlink hphase hwindow (fst_plain_ne _) hfault
  have hlist : Made a (.select patterns network) _ _ := made_channelList rfl h
  rw [select]
  split
  · split
    · next fault a' hfailed =>
      rw [hfailed] at hlist
      exact hlist
    · next directory a' hlisted =>
      rw [hlisted] at hlist
      exact hnarrow hlist
  · have hknown : Made a (.select patterns network) (.ok none) a :=
      .idle rfl rfl rfl (fun _ h => by cases h) fun _ h => by cases h
    exact hnarrow hknown

theorem requestData_ready (hready : a.phase = .ready) (h : a.link.writable = true) (key : UInt32)
    (window : Window) :
    ∃ a', a.requestData key window = (.ok (), a') ∧ a'.phase = .requesting ∧
      a'.window = some window ∧
      a'.link.sent = a.link.sent ++ [(dataRequest window key).encode] ∧
      a'.link.writable = true := by
  obtain ⟨link, hsend, hsent, hwritable⟩ :=
    Link.sendRequest_of_writable h (dataRequest window key)
  rw [dataRequest] at hsend
  rw [requestData, if_pos hready, hsend]
  exact ⟨_, rfl, rfl, rfl, hsent, hwritable⟩

theorem made_requestData (h : a.Going) (key : UInt32) (window : Window) :
    Made a (.requestData key window) (plain (a.requestData key window)).1
      (plain (a.requestData key window)).2 := by
  by_cases hready : a.phase = .ready
  · obtain ⟨a', hrequest, hphase, hwindow, hsent, hwritable⟩ :=
      requestData_ready hready (h.writable_of_ready hready) key window
    rw [hrequest]
    exact .requested hready hphase hwindow hsent hwritable
  · rw [requestData, if_neg hready]
    exact made_refused _ "Ready"

theorem made_terminate (h : a.Going) (reason : ShutdownReason) (text : String) :
    Made a (.terminate reason text) (plain (a.terminate reason text)).1
      (plain (a.terminate reason text)).2 := by
  by_cases hclosed : a.phase = .closed
  · rw [terminate, if_pos hclosed]
    exact .idle rfl rfl rfl (fst_plain_ne _) fun _ h => by cases h
  · obtain ⟨a', hterminate, hphase, hsent⟩ :=
      terminate_open hclosed (h.writable hclosed) reason text
    rw [hterminate]
    exact .ended hclosed hphase hsent

theorem made (h : a.Going) (call : Call) :
    ∃ answer a', a.call call = .ok (answer, a') ∧ Made a call answer a' := by
  cases call with
  | channelList => exact ⟨_, _, rfl, made_channelList rfl h⟩
  | select patterns network => exact ⟨_, _, rfl, made_select h patterns network⟩
  | precisList type => exact ⟨_, _, rfl, made_precisList h type⟩
  | requestData key window => exact ⟨_, _, rfl, made_requestData h key window⟩
  | terminate reason text => exact ⟨_, _, rfl, made_terminate h reason text⟩
  | next =>
    rw [Archive.call, next]
    split
    · exact ⟨_, _, rfl, .idle rfl rfl rfl (fun _ h => by cases h) fun _ h => by cases h⟩
    · next hphase =>
      obtain ⟨window, hwindow⟩ := h.window (.inl hphase)
      obtain ⟨answer, a', hanswer, hfetched⟩ := fetched_untilAnswer hwindow
      exact ⟨answer, a', hanswer, .fetched (.inl hphase) hwindow hfetched⟩
    · next hphase =>
      obtain ⟨window, hwindow⟩ := h.window (.inr hphase)
      obtain ⟨answer, a', hanswer, hfetched⟩ := fetched_untilAnswer hwindow
      exact ⟨answer, a', hanswer, .fetched (.inr hphase) hwindow hfetched⟩
    · exact ⟨_, _, rfl, made_refused .next _⟩

/-! ### What calls have in common -/

theorem Made.sent_prefix {call : Call} {answer : Next} (h : Made a call answer a') :
    a.link.sent <+: a'.link.sent := by
  cases h with
  | idle hlink => exact hlink ▸ List.prefix_refl _
  | asked _ _ _ hasked =>
    rw [hasked.sent]
    exact List.prefix_append _ _
  | requested _ _ _ hsent =>
    rw [hsent]
    exact List.prefix_append _ _
  | fetched _ _ hfetched => exact hfetched.sent_eq ▸ List.prefix_refl _
  | ended _ _ hsent =>
    rw [hsent]
    exact List.prefix_append _ _

theorem Made.of_closed {call : Call} {answer : Next} (h : Made a call answer a')
    (hclosed : a.phase = .closed) : a'.link = a.link ∧ a'.phase = .closed := by
  cases h with
  | idle hlink hphase => exact ⟨hlink, hphase.trans hclosed⟩
  | asked _ hready => simp [hclosed] at hready
  | requested hready => simp [hclosed] at hready
  | fetched hphase => simp [hclosed] at hphase
  | ended hopen => exact absurd hclosed hopen

/-- A record that a call answers: what the last message heard decodes to in the channels selected,
cut to the window of the request under way. -/
structure Delivers (a a' : Archive) (window : Window) (p : Parcel) (decoded r : Record) : Prop where
  outstanding : a.window = some window
  last : (Link.heard a'.link a.link).getLast? = some p.message
  decodes : p.record? a.selected = some decoded
  cut : r = decoded.trim (startTime window) (stopTime window)
  samples : r.samples ≠ []
  rate : 0 < r.sampleRate
  selected : r.key ∈ a.selected.keys

theorem Made.delivers {call : Call} {r : Record} (h : Made a call (.ok (some r)) a') :
    ∃ window p decoded, a.Delivers a' window p decoded r := by
  cases h with
  | idle _ _ _ hrecord => exact absurd rfl (hrecord r)
  | asked _ _ _ _ hrecord => exact absurd rfl (hrecord r)
  | @fetched window _ _ _ hwindow hfetched =>
    cases hfetched with
    | @record _ _ ps p hpasses hrecord =>
      obtain ⟨decoded, hdecodes, hcut⟩ := Option.bind_eq_some_iff.1 hrecord
      obtain ⟨htrim, hsamples, hrate, hkey⟩ := eq_trim_of_cutTo hcut
      refine ⟨window, p, decoded, hwindow, ?_, hdecodes, htrim, hsamples, hrate, ?_⟩
      · rw [hpasses.heard_eq (Nat.le_refl _), Link.heard_self, List.append_nil, List.map_append]
        exact List.getLast?_concat
      · rw [hkey]
        exact key_mem_of_record? hdecodes

end Archive

end SeisFeed.Session
