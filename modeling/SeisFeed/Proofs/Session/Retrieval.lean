import SeisFeed.Proofs.Session.Checking
import SeisFeed.Proofs.Session.Login
/-!
# Retrievals

A retrieval asks for the data of one channel after the other and feeds what comes to a pipeline. The
reply to a request is a run of messages up to the one that says the archive is ready again: of these
the packets that can be decoded and overlap the window give a record each, and the others nothing.
Reading, feeding and asking are three loops, one within the other, and each is described by what it
makes of the messages in front of it.
-/

namespace SeisFeed.Session

open Delivery (Pipeline)
open Time (Window)
open Waveform (PacketFault Record)
open Wire (Bytes)

/-! ### Records of a reply -/

def cutTo (window : Window) (r : Record) : Option Record :=
  let r := r.trim (Archive.startTime window) (Archive.stopTime window)
  if r.hasSamples then some r else none

def Parcel.record? (d : Directory) (m : Parcel) : Option Record :=
  match MessageKind.ofCode? m.code with
  | some .compressed => (Waveform.decodeCompressed d m.body).toOption
  | some .decompressed => (Waveform.decodeDecompressed d m.body).toOption
  | _ => none

/-- The records that messages hold for a window: of each packet that can be decoded the part that
lies there, if there is one. -/
def recordsIn (d : Directory) (window : Window) (ms : List Parcel) : List Record :=
  ms.filterMap fun m => (m.record? d).bind (cutTo window)

/-- Hands a record to every sink, in order. -/
def serve {σ : Type} (pipeline : Pipeline σ) (world : σ) (r : Record) : σ :=
  pipeline.foldl (fun world sink => (sink.take r world).2) world

theorem world_process {σ : Type} (pipeline : Pipeline σ) (r : Record) (world : σ) :
    (pipeline.process r world).2 = serve pipeline world r := by
  rw [Pipeline.process, serve]
  generalize 0 = failed
  induction pipeline generalizing failed world with
  | nil => rfl
  | cons sink pipeline ih =>
    rw [List.foldl_cons, List.foldl_cons]
    dsimp only
    generalize sink.take r world = taken
    rcases taken with ⟨fault | _, world'⟩
    · exact ih world' (failed + 1)
    · exact ih world' failed

namespace Archive

variable {rest : Link} {window : Window} {packets behind : List Parcel} {a : Archive} {m : Parcel}

/-! ### One message -/

/-- A session that reads the reply to a request, with some packets of it still in front. -/
structure Receives (rest : Link) (window : Window) (ms : List Parcel) (a : Archive) : Prop where
  phase : a.phase = .requesting ∨ a.phase = .receiving
  window : a.window = some window
  link : a.link = rest.carrying ms
  free : rest.Free

/-- Taking a packet changes nothing of what a session waits for. -/
structure Alike (a a' : Archive) : Prop where
  link : a'.link = a.link
  window : a'.window = a.window
  selected : a'.selected = a.selected
  phase : a'.phase = a.phase ∨ a'.phase = .receiving

theorem Receives.alike {a' : Archive} {ms : List Parcel} (h : a.Receives rest window ms)
    (halike : a.Alike a') : a'.Receives rest window ms := by
  refine ⟨?_, halike.window.trans h.window, halike.link.trans h.link, h.free⟩
  rcases halike.phase with hphase | hphase
  · rw [hphase]
    exact h.phase
  · exact .inr hphase

theorem accept_eq (hwindow : a.window = some window) (result : Except PacketFault Record) :
    ∃ a', a.accept result = (result.toOption.bind (cutTo window), a') ∧ a.Alike a' := by
  cases result with
  | error fault =>
    cases fault
    case fillerPacket => exact ⟨a, rfl, rfl, rfl, rfl, .inl rfl⟩
    all_goals exact ⟨{ a with dropped := a.dropped + 1 }, rfl, rfl, rfl, rfl, .inl rfl⟩
  | ok r =>
    have hcut : a.cut? r = cutTo window r := by rw [cut?, hwindow]; rfl
    have hbind : (Except.ok r : Except PacketFault Record).toOption.bind (cutTo window) =
        cutTo window r := rfl
    rw [accept, hcut, hbind]
    cases cutTo window r with
    | none => exact ⟨a, rfl, rfl, rfl, rfl, .inl rfl⟩
    | some x => exact ⟨{ a with tracker := (a.tracker.observe x).2 }, rfl, rfl, rfl, rfl, .inl rfl⟩

/-- What a passive message makes of a session: its record is answered, or there is none and the
session reads on. -/
inductive Handled (window : Window) (a : Archive) (m : Parcel) : Turn Next Archive → Prop where
  | record {r : Record} {a' : Archive}
      (hrecord : (m.record? a.selected).bind (cutTo window) = some r) (halike : a.Alike a') :
      Handled window a m (.answer (.ok (some r)) a')
  | nothing {a' : Archive} (hrecord : (m.record? a.selected).bind (cutTo window) = none)
      (halike : a.Alike a') : Handled window a m (.again a')

theorem handled (hwindow : a.window = some window) (hpassive : m.Passive) :
    Handled window a m (a.handle m.message) := by
  have hpacket : ∀ result : Except PacketFault Record, m.record? a.selected = result.toOption →
      Handled window a m (a.receivePacket result) := by
    intro result hresult
    obtain ⟨a', haccept, halike⟩ :=
      accept_eq (a := { a with phase := .receiving }) hwindow result
    have halike : a.Alike a' := by
      refine ⟨halike.link, halike.window, halike.selected, .inr ?_⟩
      rcases halike.phase with h | h
      · exact h
      · exact h
    rw [receivePacket, haccept, ← hresult]
    cases hrecord : (m.record? a.selected).bind (cutTo window) with
    | none => exact .nothing hrecord halike
    | some r => exact .record hrecord halike
  have hkind : m.message.header.kind? = MessageKind.ofCode? m.code := rfl
  rw [handle, hkind]
  split
  · next h => exact hpacket _ (by rw [Parcel.record?, h]; rfl)
  · next h => exact hpacket _ (by rw [Parcel.record?, h]; rfl)
  · next h => exact absurd h hpassive.ready
  · next h => exact absurd h hpassive.error
  · next hcompressed hdecompressed _ _ =>
    refine .nothing ?_ ⟨rfl, rfl, rfl, .inl rfl⟩
    rw [Parcel.record?]
    split
    · next h => exact absurd h hcompressed
    · next h => exact absurd h hdecompressed
    · rfl

theorem turn_carrying {ms : List Parcel} (hlink : a.link = rest.carrying (m :: ms)) :
    a.turn = ({ a with link := rest.carrying ms } : Archive).handle m.message := by
  rw [turn, hlink, Link.receiveMessage_carrying]

/-! ### Reading a reply -/

/-- What reading comes to: the first record that the packets hold is answered, and the others are
still to come; or they hold none, and the session is ready again. -/
inductive Reads (rest : Link) (window : Window) (packets behind : List Parcel) (ready : Parcel)
    (a : Archive) : Prop where
  | record {r : Record} {rs : List Record} {a' : Archive} {packets' : List Parcel}
      (hrecords : recordsIn a.selected window packets = r :: rs)
      (hturns : untilAnswer size (fun a => .ok a.turn) a = .ok (.ok (some r), a'))
      (hreceives : a'.Receives rest window (packets' ++ ready :: behind))
      (hpassive : ∀ m ∈ packets', m.Passive) (hselected : a'.selected = a.selected)
      (hrest : recordsIn a.selected window packets' = rs) (hless : a'.size < a.size)
  | ready {a' : Archive} (hrecords : recordsIn a.selected window packets = [])
      (hturns : untilAnswer size (fun a => .ok a.turn) a = .ok (.ok none, a'))
      (hidles : a'.Idles rest behind) (hselected : a'.selected = a.selected)

theorem Reads.of_again {ready : Parcel} {a' : Archive}
    (h : Reads rest window packets behind ready a')
    (hagain : untilAnswer size (fun a => .ok a.turn) a = untilAnswer size (fun a => .ok a.turn) a')
    (hrecords : recordsIn a.selected window (m :: packets) =
      recordsIn a.selected window packets)
    (hselected : a'.selected = a.selected) (hless : a'.size < a.size) :
    Reads rest window (m :: packets) behind ready a := by
  cases h with
  | record hfirst hturns hreceives hpassive hsame hrest hless' =>
    rw [hselected] at hfirst hrest
    exact .record (hrecords.trans hfirst) (hagain.trans hturns) hreceives hpassive
      (hsame.trans hselected) hrest (Nat.lt_trans hless' hless)
  | ready hnone hturns hidles hsame =>
    rw [hselected] at hnone
    exact .ready (hrecords.trans hnone) (hagain.trans hturns) hidles (hsame.trans hselected)

theorem Receives.reads {ready : Parcel} (hpassive : ∀ m ∈ packets, m.Passive)
    (hready : MessageKind.ofCode? ready.code = some .ready)
    (h : a.Receives rest window (packets ++ ready :: behind)) :
    Reads rest window packets behind ready a := by
  induction packets generalizing a with
  | nil =>
    have hkind : ready.message.header.kind? = some .ready := hready
    have hturn : a.turn = .answer (.ok none)
        { a with link := rest.carrying behind, phase := .ready, window := none } := by
      rw [turn_carrying h.link, handle]
      simp only [hkind]
    exact .ready rfl (untilAnswer_answer (congrArg Except.ok hturn)) ⟨rfl, rfl, h.free⟩ rfl
  | cons m packets ih =>
    let taken : Archive := { a with link := rest.carrying (packets ++ ready :: behind) }
    have hturn : a.turn = taken.handle m.message := turn_carrying h.link
    have htaken : taken.Receives rest window (packets ++ ready :: behind) :=
      ⟨h.phase, h.window, rfl, h.free⟩
    have hless : ∀ a', taken.Alike a' → a'.size < a.size := by
      intro a' halike
      rw [size, size, halike.link, h.link]
      exact Link.size_carrying_lt rest m (packets ++ ready :: behind)
    have hpassive' : ∀ x ∈ packets, x.Passive := fun x hx =>
      hpassive x (List.mem_cons_of_mem m hx)
    have hhandled := handled h.window (hpassive m List.mem_cons_self) (a := taken)
    generalize taken.handle m.message = outcome at hturn hhandled
    cases hhandled with
    | @record r a' hrecord halike =>
      have hfirst : recordsIn a.selected window (m :: packets) =
          r :: recordsIn a.selected window packets := List.filterMap_cons_some hrecord
      exact .record hfirst (untilAnswer_answer (congrArg Except.ok hturn)) (htaken.alike halike)
        hpassive' halike.selected rfl (hless a' halike)
    | @nothing a' hrecord halike =>
      have hagain : untilAnswer size (fun a => .ok a.turn) a =
          untilAnswer size (fun a => .ok a.turn) a' :=
        untilAnswer_again (congrArg Except.ok hturn) (hless a' halike)
      exact (ih hpassive' (htaken.alike halike)).of_again hagain
        (List.filterMap_cons_none hrecord) halike.selected (hless a' halike)

theorem Receives.next_eq {ms : List Parcel} (h : a.Receives rest window ms) :
    a.next = untilAnswer size (fun a => .ok a.turn) a := by
  rw [next]
  rcases h.phase with hphase | hphase
  · rw [hphase]
  · rw [hphase]

/-! ### Feeding a reply -/

variable {σ : Type} {pipeline : Pipeline σ}

structure Served (pipeline : Pipeline σ) (rs : List Record) (f f' : Feed Archive σ) : Prop where
  world : f'.world = rs.foldl (serve pipeline) f.world
  count : f'.count = f.count + rs.length
  selected : f'.source.selected = f.source.selected

theorem Served.trans {rs rs' : List Record} {f f' f'' : Feed Archive σ}
    (h : Served pipeline rs f f') (h' : Served pipeline rs' f' f'') :
    Served pipeline (rs ++ rs') f f'' := by
  refine ⟨?_, ?_, h'.selected.trans h.selected⟩
  · rw [h'.world, h.world, List.foldl_append]
  · rw [h'.count, h.count, List.length_append, Nat.add_assoc]

theorem feed_reply (pipeline : Pipeline σ) {ready : Parcel} {rs : List Record}
    {f : Feed Archive σ} (hready : MessageKind.ofCode? ready.code = some .ready)
    (hpassive : ∀ m ∈ packets, m.Passive)
    (hreceives : f.source.Receives rest window (packets ++ ready :: behind))
    (hrecords : recordsIn f.source.selected window packets = rs) :
    ∃ f', untilAnswer feedSize (Feed.turn pipeline next) f = .ok (.ok (), f') ∧
      f'.source.Idles rest behind ∧ Served pipeline rs f f' := by
  -- on the records and not on the packets: for one record, reading may go over several packets
  induction rs generalizing f packets with
  | nil =>
    cases hreceives.reads hpassive hready with
    | record hsome => exact absurd (hrecords.symm.trans hsome) (List.cons_ne_nil _ _).symm
    | @ready a' _ hturns hidles hselected =>
      have hturn : Feed.turn pipeline next f = .ok (.answer (.ok ()) { f with source := a' }) := by
        rw [Feed.turn, hreceives.next_eq, hturns]
        rfl
      exact ⟨{ f with source := a' }, untilAnswer_answer hturn, hidles, rfl, rfl, hselected⟩
  | cons r rs ih =>
    cases hreceives.reads hpassive hready with
    | ready hnone => exact absurd (hrecords.symm.trans hnone) (List.cons_ne_nil _ _)
    | @record r' rs' a' packets' hfirst hturns hreceives' hpassive' hselected hrest hless =>
      obtain ⟨rfl, rfl⟩ := List.cons.inj (hrecords.symm.trans hfirst)
      let f₁ : Feed Archive σ := Feed.give pipeline r { f with source := a' }
      have hturn : Feed.turn pipeline next f = .ok (.again f₁) := by
        rw [Feed.turn, hreceives.next_eq, hturns]
        rfl
      have hgiven : Served pipeline [r] f f₁ := ⟨world_process pipeline r f.world, rfl, hselected⟩
      have hlater : recordsIn f₁.source.selected window packets' = rs := by
        rw [hgiven.selected]
        exact hrest
      obtain ⟨f', hfed, hidles, hserved⟩ := ih hpassive' hreceives' hlater
      exact ⟨f', (untilAnswer_again hturn hless).trans hfed, hidles, hgiven.trans hserved⟩

/-! ### Whole retrievals -/

def dataRequest (window : Window) (key : UInt32) : Request :=
  .dataRequest key window.start window.stop

theorem retrieveChannel_eq (pipeline : Pipeline σ) (window : Window) (key : UInt32)
    {reply : Reply} {f : Feed Archive σ}
    (hidles : f.source.Idles rest (reply.messages ++ behind)) :
    ∃ f', retrieveChannel pipeline window key f = .ok (.ok (), f') ∧
      f'.source.Idles (rest.after (dataRequest window key)) behind ∧
      Served pipeline (recordsIn f.source.selected window reply.packets) f f' := by
  let asked : Archive := { f.source with
    link := (rest.after (dataRequest window key)).carrying (reply.messages ++ behind)
    window := some window
    phase := .requesting }
  have hrequest : f.source.requestData key window = (.ok (), asked) := by
    rw [requestData, if_pos hidles.phase, hidles.link, (hidles.free.carrying _).sendRequest]
    rfl
  have hreceives : asked.Receives (rest.after (dataRequest window key)) window
      (reply.packets ++ reply.ready :: behind) := by
    refine ⟨.inl rfl, rfl, ?_, hidles.free.after _⟩
    show Link.carrying _ (reply.messages ++ behind) = _
    rw [Reply.messages, List.append_assoc]
    rfl
  obtain ⟨f', hfed, hidles', hserved⟩ := feed_reply pipeline (f := { f with source := asked })
    reply.isReady reply.passive hreceives rfl
  refine ⟨f', ?_, hidles', hserved.world, hserved.count, hserved.selected⟩
  rw [retrieveChannel, hrequest]
  exact hfed

theorem retrieveChannels_eq (pipeline : Pipeline σ) {isStopped : σ → Bool}
    (hstop : ∀ world, isStopped world = false) (window : Window) (answer : UInt32 → Reply)
    {keys : List UInt32} {f : Feed Archive σ}
    (hidles : f.source.Idles rest ((keys.flatMap fun key => (answer key).messages) ++ behind)) :
    ∃ f', retrieveChannels pipeline isStopped window keys f = .ok (.ok true, f') ∧
      f'.source.Idles (rest.afterAll (keys.map (dataRequest window))) behind ∧
      Served pipeline
        (keys.flatMap fun key => recordsIn f.source.selected window (answer key).packets) f f' := by
  induction keys generalizing f rest with
  | nil => exact ⟨f, rfl, hidles, rfl, rfl, rfl⟩
  | cons key keys ih =>
    rw [List.flatMap_cons, List.append_assoc] at hidles
    obtain ⟨f₁, hfirst, hidles₁, hserved₁⟩ :=
      retrieveChannel_eq pipeline window key hidles
    obtain ⟨f', hrest, hidles', hserved⟩ := ih hidles₁
    rw [hserved₁.selected] at hserved
    refine ⟨f', ?_, hidles', hserved₁.trans hserved⟩
    rw [retrieveChannels, hstop, hfirst]
    exact hrest

theorem credentials_of_validate {request : ArchiveRequest} (h : request.validate = .ok ()) :
    request.credentials.validate = .ok () :=
  (ArchiveRequest.checks_of_validate h).2

theorem terminate_open (hopen : a.phase ≠ .closed) (h : a.link.writable = true)
    (reason : ShutdownReason) (text : String) :
    ∃ a', a.terminate reason text = (.ok (), a') ∧ a'.phase = .closed ∧
      a'.link.sent = a.link.sent ++ [(Request.terminateSubscription reason text).encode] := by
  obtain ⟨link, hsend, hsent, -⟩ :=
    Link.sendRequest_of_writable h (.terminateSubscription reason text)
  rw [terminate, if_neg hopen, Link.farewell, hsend]
  exact ⟨_, rfl, rfl, hsent⟩

/-- What an archive is told at the end, where it can still be told anything. -/
def parting : Except SessionFault Unit → Request
  | .ok () => .terminateSubscription .normal "done"
  | .error fault => .terminateSubscription .error fault.message

theorem conclude_open {f : Feed Archive σ} (ending : Except SessionFault Unit)
    (hopen : f.source.phase ≠ .closed) (hwritable : f.source.link.writable = true) :
    ∃ a', conclude ending f = (ending.map fun _ => f.count, { f with source := a' }) ∧
      a'.phase = .closed ∧ a'.link.sent = f.source.link.sent ++ [(parting ending).encode] := by
  cases ending with
  | ok _ =>
    obtain ⟨a', hterminate, hphase, hsent⟩ := terminate_open hopen hwritable .normal "done"
    refine ⟨a', ?_, hphase, hsent⟩
    rw [conclude, hterminate]
    rfl
  | error fault =>
    obtain ⟨a', hterminate, hphase, hsent⟩ := terminate_open hopen hwritable .error fault.message
    refine ⟨a', ?_, hphase, hsent⟩
    rw [conclude, hterminate]
    rfl

theorem conclude_eq {f : Feed Archive σ} (hidles : f.source.Idles rest behind) :
    ∃ f' : Feed Archive σ, conclude (.ok ()) f = (.ok f.count, f') ∧ f'.world = f.world ∧
      f'.source.link.sent =
        (rest.after (.terminateSubscription .normal "done")).sent ∧ f'.source.phase = .closed := by
  have hopen : f.source.phase ≠ .closed := by simp [hidles.phase]
  have hwritable : f.source.link.writable = true := by
    rw [hidles.link]
    exact (hidles.free.carrying behind).writable
  obtain ⟨a', hconclude, hphase, hsent⟩ := conclude_open (.ok ()) hopen hwritable
  refine ⟨{ f with source := a' }, hconclude, rfl, ?_, hphase⟩
  rw [hsent, hidles.link]
  rfl

theorem retrieveWindows_eq {request : ArchiveRequest} {isStopped : σ → Bool} {a' : Archive}
    {world : σ} {selected : Directory} {f : Feed Archive σ} (ending : Except SessionFault Unit)
    (hdelay : request.delay = none)
    (hselect : a.select request.patterns request.network = (.ok selected, a'))
    (hretrieved : retrieveChannels pipeline isStopped request.window selected.keys
      (.start a' world) = .ok (ending.map fun _ => true, f)) :
    retrieveWindows pipeline isStopped request (.start a world) = .ok (ending, f) := by
  have hturn : windowTurn pipeline isStopped request selected.keys
      (request.window, .start a' world) = .ok (.answer ending (request.window, f)) := by
    cases ending <;>
      simp only [windowTurn, await?, hdelay, hretrieved, Except.map, Option.isNone_none, if_true]
  have hselect : (Feed.start a world).source.select request.patterns request.network =
      (.ok selected, a') := hselect
  rw [retrieveWindows, hselect]
  show Except.map _ (untilAnswer _ _ (request.window, Feed.start a' world)) = _
  rw [untilAnswer_answer hturn]
  rfl

def requests (request : ArchiveRequest) (token : Int32) (keys : List UInt32) : List Request :=
  loginRequest request.credentials token :: .channelListRequest ::
    (keys.map (dataRequest request.window) ++ [.terminateSubscription .normal "done"])

/-- **A retrieval is complete and exact.** An archive that sends a token, is ready, lists channels
and replies to each request is asked for the data of every channel that the patterns match, in the
order of its list, once. Every sink is given each record that the replies hold for the window, in
order and whether or not others fail, and the session is ended in order. -/
theorem retrieval_complete (request : ArchiveRequest) (settings : ClientSettings)
    (pipeline : Pipeline σ) {isStopped : σ → Bool} (world : σ) (token : Int32) (greeting : Reply)
    (listing : Parcel) (answer : UInt32 → Reply) (tail : Bytes) (closes : Bool) {n : Network}
    {directory : Directory} {patterns : List Pattern}
    {coming : List (Except SessionFault Incoming)}
    (hvalid : request.validate = .ok ()) (hdelay : request.delay = none)
    (hstop : ∀ world, isStopped world = false)
    (hkind : MessageKind.ofCode? listing.code = some .channelList)
    (hparse : Directory.parse listing.body = .ok directory)
    (hpatterns : Pattern.parseList request.patterns request.network = .ok patterns)
    (hmatched : ((timeSeries directory).selectBy patterns).channels ≠ [])
    (hcoming : n.coming = .ok ⟨welcome token greeting
      (listing :: ((timeSeries directory).selectBy patterns).keys.flatMap fun key =>
        (answer key).messages) tail, [], closes⟩ :: coming) :
    let selected := (timeSeries directory).selectBy patterns
    let records := selected.keys.flatMap fun key =>
      recordsIn selected request.window (answer key).packets
    ∃ a n' f, connect request.credentials settings false n = .ok (.ok a, n') ∧
      run pipeline isStopped request a world = .ok (.ok records.length, f) ∧
      f.world = records.foldl (serve pipeline) world ∧
      f.source.link.sent = (requests request token selected.keys).map Request.encode ∧
      f.source.phase = .closed := by
  intro selected records
  let link : Link := Link.opened ⟨tail, [], closes⟩ settings.readTimeout
  let login := loginRequest request.credentials token
  let answers := selected.keys.flatMap fun key => (answer key).messages
  let a := loggedIn token ((link.after login).carrying (listing :: answers))
  have hconnect : connect request.credentials settings false n = _ :=
    connect_welcome (credentials_of_validate hvalid) settings hcoming
  have hidles : a.Idles (link.after login) (listing :: answers) :=
    ⟨rfl, rfl, (Link.free_opened tail closes settings.readTimeout).after login⟩
  obtain ⟨a₁, hselect, hidles₁, hselected⟩ :=
    select_carrying hidles rfl hkind hparse hpatterns hmatched
  let f₁ : Feed Archive σ := .start a₁ world
  have hidles₁ : f₁.source.Idles ((link.after login).after .channelListRequest) (answers ++ []) :=
    (List.append_nil answers).symm ▸ hidles₁
  obtain ⟨f₂, hretrieved, hidles₂, hserved⟩ :=
    retrieveChannels_eq pipeline hstop request.window answer hidles₁
  have hselected : f₁.source.selected = selected := hselected
  rw [hselected] at hserved
  have hcount : f₂.count = records.length := hserved.count.trans (Nat.zero_add _)
  have hwindows := retrieveWindows_eq (.ok ()) hdelay hselect hretrieved
  obtain ⟨f, hconclude, hworld, hsent, hphase⟩ := conclude_eq hidles₂
  refine ⟨a, _, f, hconnect, ?_, hworld.trans hserved.world, ?_, hphase⟩
  · rw [run, hvalid]
    dsimp only
    rw [hwindows, ← hcount, ← hconclude]
    rfl
  · have hlink : (((link.after login).after .channelListRequest).afterAll
        (selected.keys.map (dataRequest request.window))).after
          (.terminateSubscription .normal "done") =
        link.afterAll (requests request token selected.keys) := by
      simp [Link.afterAll, requests, login]
    rw [hsent, hlink, Link.sent_afterAll]
    rfl

end Archive

namespace Sample

def firstSecond : ArchiveRequest :=
  .ofPatterns "PFO.HHZ" ⟨1700000000, 1700000001⟩

def greeting : Reply where
  packets := [⟨MessageKind.channelList.code, [], by decide⟩]
  ready := ⟨MessageKind.ready.code, [], by decide⟩
  passive := by
    intro m hm
    obtain rfl := List.mem_singleton.1 hm
    exact ⟨by decide, by decide⟩
  isReady := rfl

/-- A packet inside the first second, one that cannot be decoded, one that reaches beyond the
second, and one behind it. -/
def reply : Reply where
  packets := [packet 0 0, ⟨MessageKind.compressed.code, [], by decide⟩, packet 6 16, packet 7 32]
  ready := ⟨MessageKind.ready.code, [], by decide⟩
  passive := by
    intro m hm
    simp only [List.mem_cons, List.not_mem_nil, or_false] at hm
    rcases hm with rfl | rfl | rfl | rfl <;> exact ⟨by decide, by decide⟩
  isReady := rfl

/-- A sink that is closed, and one that writes down how many samples each record has. -/
def closedThenCounting : Pipeline (List Nat) :=
  [⟨"closed", fun _ world => (.error .closed, world)⟩,
    ⟨"counting", fun r world => (.ok (), world ++ [r.samples.length])⟩]

def bothChannels : ArchiveRequest :=
  .ofPatterns "PFO.HH?" ⟨1700000000, 1700000001⟩

def hhPattern : Pattern :=
  ⟨"XX", some "PFO", [.byte 0x48, .byte 0x48, .any]⟩

/-- Two channels with time series, not in the order of their keys, and one without. -/
def stationList : Parcel :=
  let directory := Directory.ofList
    [⟨0x00030101, "PFO.HHN", none⟩, ⟨0x00030200, "PFO.SOH", none⟩, ⟨0x00030100, "PFO.HHZ", none⟩]
  ⟨MessageKind.channelList.code, directory.toBody, by decide⟩

def station : Directory :=
  .ofList [⟨0x00030101, "PFO.HHN", some "XX"⟩, ⟨0x00030100, "PFO.HHZ", some "XX"⟩]

/-- One packet, which reaches beyond the first second. -/
def shortReply : Reply where
  packets := [packetOf 1 1700000000 6 16]
  ready := ⟨MessageKind.ready.code, [], by decide⟩
  passive := by
    intro m hm
    obtain rfl := List.mem_singleton.1 hm
    exact ⟨by decide, by decide⟩
  isReady := rfl

def replyTo (key : UInt32) : Reply :=
  if key = 0x00030100 then reply else shortReply

def pfoArchive : Network :=
  let bytes := Archive.welcome 1700000000 greeting
    (stationList :: ((replyTo 0x00030101).messages ++ (replyTo 0x00030100).messages)) []
  .ofServers "PFO" [⟨bytes, [], true⟩]

/-- Both channels are asked for, in the order of the list. -/
theorem retrieval_complete_past_closed_sink :
    bothChannels.validate = .ok () ∧
      ∃ a n' f,
        Archive.connect bothChannels.credentials .standard false pfoArchive = .ok (.ok a, n') ∧
        Archive.run closedThenCounting (fun _ => false) bothChannels a [] = .ok (.ok 3, f) ∧
        f.world = [4, 16, 4] ∧
        f.source.link.sent =
          (Archive.requests bothChannels 1700000000 [0x00030101, 0x00030100]).map
            Request.encode := by
  obtain ⟨directory, hparse, hselected⟩ : ∃ directory, Directory.parse stationList.body =
      .ok directory ∧ (timeSeries directory).selectBy [hhPattern] = station :=
    ⟨_, rfl, rfl⟩
  have hpatterns : Pattern.parseList "PFO.HH?" "XX" = .ok [hhPattern] := rfl
  have hcoming : pfoArchive.coming = .ok ⟨Archive.welcome 1700000000 greeting
      (stationList :: station.keys.flatMap fun key => (replyTo key).messages) [], [], true⟩ :: [] :=
    rfl
  rw [← hselected] at hcoming
  obtain ⟨a, n', f, hconnect, hrun, hworld, hsent, -⟩ := Archive.retrieval_complete bothChannels
    .standard closedThenCounting [] 1700000000 greeting stationList replyTo [] true
    (n := pfoArchive) rfl rfl (fun _ => rfl) rfl hparse hpatterns (by rw [hselected]; decide)
    hcoming
  rw [hselected] at hrun hworld hsent
  let records : List Record := station.keys.flatMap fun key =>
    recordsIn station bothChannels.window (replyTo key).packets
  have hcount : records.length = 3 := by decide +kernel
  have hserved : records.foldl (serve closedThenCounting) [] = [4, 16, 4] := by decide +kernel
  exact ⟨rfl, a, n', f, hconnect, hcount ▸ hrun, hworld.trans hserved, hsent⟩

end Sample

end SeisFeed.Session
