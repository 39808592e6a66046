import SeisFeed.Proofs.Session.Discipline
/-!
# How a retrieval ends

Whatever an archive sends, a retrieval comes to an end and leaves its session closed. It asks for
the channels first and then for the data of one channel after the other, and where it does not break
off before, for all that are selected. What it sends last says why the session is over, except where
the link was lost while an answer was read: then the session is closed already, and nothing more is
sent.

Feeding a pipeline from a source asks the source for its next record until there is none; `Gives`
tells what the source answered, and what the pipeline was handed is just that. `Retrieves` puts the
answers of one channel after the other in a row.
-/

namespace SeisFeed.Session

open Delivery (Pipeline)
open Time (Window)
open Waveform (Record)
open Wire (Bytes)

/-! ### Feeding from any source -/

namespace Feed

variable {κ σ : Type} {next : κ → Except Halt (Next × κ)}

/-- A source is asked for its next record until it answers none: the records, and how it ended. -/
inductive Gives (next : κ → Except Halt (Next × κ)) :
    κ → List Record → Except SessionFault Unit → κ → Prop where
  | ended {s s' : κ} (hnext : next s = .ok (.ok none, s')) : Gives next s [] (.ok ()) s'
  | failed {s s' : κ} {fault : SessionFault} (hnext : next s = .ok (.error fault, s')) :
      Gives next s [] (.error fault) s'
  | record {s s₁ s' : κ} {r : Record} {rs : List Record} {ending : Except SessionFault Unit}
      (hnext : next s = .ok (.ok (some r), s₁)) (hlater : Gives next s₁ rs ending s') :
      Gives next s (r :: rs) ending s'

/-- The feed after its source gave some records. -/
def served (pipeline : Pipeline σ) (f : Feed κ σ) (rs : List Record) (s : κ) : Feed κ σ :=
  ⟨s, rs.foldl (serve pipeline) f.world, f.count + rs.length⟩

theorem served_cons (pipeline : Pipeline σ) (f : Feed κ σ) (r : Record) (rs : List Record)
    (s s' : κ) :
    (give pipeline r { f with source := s }).served pipeline rs s' =
      f.served pipeline (r :: rs) s' := by
  simp only [served, give, world_process, List.foldl_cons, List.length_cons, Nat.add_assoc,
    Nat.add_comm 1]

theorem served_append (pipeline : Pipeline σ) (f : Feed κ σ) (rs rs' : List Record) (s s' : κ) :
    (f.served pipeline rs s).served pipeline rs' s' = f.served pipeline (rs ++ rs') s' := by
  simp only [served, List.foldl_append, List.length_append, Nat.add_assoc]

/-- A source that answers every call, and with each record becomes smaller, is asked until it ends;
the pipeline is handed what it gave, in order. -/
theorem fed_untilAnswer (size : κ → Nat) {P : κ → Prop} (pipeline : Pipeline σ)
    (hnext : ∀ s, P s → ∃ answer s', next s = .ok (answer, s') ∧
      ∀ r, answer = .ok (some r) → P s' ∧ size s' < size s)
    {f : Feed κ σ} (hf : P f.source) :
    ∃ rs ending s', Gives next f.source rs ending s' ∧
      untilAnswer (fun f => size f.source) (Feed.turn pipeline next) f =
        .ok (ending, f.served pipeline rs s') := by
  -- on the size of the source, which every record makes smaller
  induction hn : size f.source using Nat.strongRecOn generalizing f with
  | ind n ih =>
    subst hn
    obtain ⟨answer, s, hanswer, hrecord⟩ := hnext f.source hf
    have hturn : Feed.turn pipeline next f =
        .ok (Feed.take pipeline { f with source := s } answer) := by
      rw [Feed.turn, hanswer]
      rfl
    rcases answer with fault | _ | r
    · exact ⟨[], .error fault, s, .failed hanswer, untilAnswer_answer hturn⟩
    · exact ⟨[], .ok (), s, .ended hanswer, untilAnswer_answer hturn⟩
    · obtain ⟨hs, hless⟩ := hrecord r rfl
      obtain ⟨rs, ending, s', hgives, hfed⟩ :=
        ih (size s) hless (f := give pipeline r { f with source := s }) hs rfl
      refine ⟨r :: rs, ending, s', .record hanswer hgives, ?_⟩
      rw [← served_cons pipeline f r rs s s', ← hfed]
      exact untilAnswer_again hturn hless

end Feed

namespace Archive

variable {a a' : Archive} {window : Window}

/-! ### Reading an answer -/

/-- A session that waits for the answer to a request for a window, and can send. -/
structure Waiting (window : Window) (a : Archive) : Prop where
  phase : a.phase = .requesting ∨ a.phase = .receiving
  window : a.window = some window
  writable : a.link.writable = true

/-- How an answer leaves a session, which has sent nothing more: it is ready, or the archive refused
and it can say so, or the link is lost and it is closed. -/
inductive Left (sent : List Bytes) : Except SessionFault Unit → Archive → Prop where
  | ready {a : Archive} (hsent : a.link.sent = sent) (hphase : a.phase = .ready)
      (hwritable : a.link.writable = true) : Left sent (.ok ()) a
  | refused {a : Archive} {fault : SessionFault} (hsent : a.link.sent = sent)
      (hphase : a.phase ≠ .closed) (hwritable : a.link.writable = true)
      (hmends : fault.isConnectionFatal = false) : Left sent (.error fault) a
  | lost {a : Archive} {fault : SessionFault} (hsent : a.link.sent = sent)
      (hphase : a.phase = .closed) (hfatal : fault.isConnectionFatal = true) :
      Left sent (.error fault) a

theorem Passes.waiting {ps : List Parcel} (h : a.Passes ps a') (hwaiting : a.Waiting window) :
    a'.Waiting window where
  phase := by
    rcases h.alike.phase with hsame | hreceiving
    · exact hsame.symm ▸ hwaiting.phase
    · exact .inr hreceiving
  window := h.alike.window.trans hwaiting.window
  writable := h.sent_eq.2.trans hwaiting.writable

theorem Waiting.open (h : a.Waiting window) : a.phase ≠ .closed := by
  rcases h.phase with hphase | hphase <;> simp [hphase]

theorem Waiting.next_eq (h : a.Waiting window) :
    a.next = untilAnswer size (fun a => .ok a.turn) a := by
  rcases h.phase with hphase | hphase <;> simp only [next, hphase]

theorem Waiting.fetched (h : a.Waiting window) :
    ∃ answer a', a.next = .ok (answer, a') ∧ Fetched window a answer a' := by
  rw [h.next_eq]
  exact fetched_untilAnswer h.window

theorem Waiting.of_record {r : Record} (h : a.Waiting window)
    (hfetched : Fetched window a (.ok (some r)) a') : a'.Waiting window ∧ a'.size < a.size := by
  cases hfetched with
  | @record _ _ ps p hpasses =>
    refine ⟨hpasses.waiting h, ?_⟩
    have hlink := hpasses.link
    rw [size, size, hlink, Link.carrying_append, Link.size_carrying _ ps]
    exact Nat.lt_add_left _ (Link.size_carrying_lt a'.link p [])

theorem Waiting.fetched_of_next {answer : Next} (h : a.Waiting window)
    (hnext : a.next = .ok (answer, a')) : Fetched window a answer a' := by
  obtain ⟨answer', b, hanswer, hfetched⟩ := h.fetched
  obtain ⟨rfl, rfl⟩ := Prod.mk.inj (Except.ok.inj (hanswer.symm.trans hnext))
  exact hfetched

theorem Waiting.left_of_gives {rs : List Record} {ending : Except SessionFault Unit}
    (h : a.Waiting window) (hgives : Feed.Gives next a rs ending a') :
    Left a.link.sent ending a' := by
  induction hgives with
  | ended hnext =>
    have hfetched := h.fetched_of_next hnext
    have hsent := hfetched.sent_eq
    cases hfetched with
    | ready hpasses hlink =>
      have hwritable := hpasses.sent_eq.2.trans h.writable
      rw [hlink] at hwritable
      exact .ready hsent rfl hwritable
  | failed hnext =>
    have hfetched := h.fetched_of_next hnext
    have hsent := hfetched.sent_eq
    cases hfetched with
    | refused text hpasses =>
      have hwaiting := hpasses.waiting h
      exact .refused hsent hwaiting.open hwaiting.writable rfl
    | lost _ _ hfatal => exact .lost hsent rfl hfatal
  | record hnext _ ih =>
    have hfetched := h.fetched_of_next hnext
    rw [← hfetched.sent_eq]
    exact ih (h.of_record hfetched).1

/-! ### Asking for one channel after the other -/

/-- Data is requested of one channel after the other, until an answer breaks off: the channels that
were asked for, the records that the answers gave, and how the last of them ended. -/
inductive Retrieves (window : Window) :
    Archive → List UInt32 → List Record → Except SessionFault Unit → Archive → Prop where
  | none (a : Archive) : Retrieves window a [] [] (.ok ()) a
  | last {a a₁ a' : Archive} {key : UInt32} {rs : List Record} {fault : SessionFault}
      (hrequest : a.requestData key window = (.ok (), a₁))
      (hgives : Feed.Gives next a₁ rs (.error fault) a') :
      Retrieves window a [key] rs (.error fault) a'
  | more {a a₁ a₂ a' : Archive} {key : UInt32} {keys : List UInt32} {rs rs' : List Record}
      {ending : Except SessionFault Unit} (hrequest : a.requestData key window = (.ok (), a₁))
      (hgives : Feed.Gives next a₁ rs (.ok ()) a₂)
      (hlater : Retrieves window a₂ keys rs' ending a') :
      Retrieves window a (key :: keys) (rs ++ rs') ending a'

variable {σ : Type} {f : Feed Archive σ} {isStopped : σ → Bool}

theorem retrieveChannel_gives (pipeline : Pipeline σ) (window : Window) (key : UInt32)
    (hready : f.source.phase = .ready) (hwritable : f.source.link.writable = true) :
    ∃ a rs ending a', f.source.requestData key window = (.ok (), a) ∧
      Feed.Gives next a rs ending a' ∧
      Left (f.source.link.sent ++ [(dataRequest window key).encode]) ending a' ∧
      retrieveChannel pipeline window key f = .ok (ending, f.served pipeline rs a') := by
  obtain ⟨a, hrequest, hphase, hwindow, hsent, hwritable⟩ :=
    requestData_ready hready hwritable key window
  have hwaiting : a.Waiting window := ⟨.inl hphase, hwindow, hwritable⟩
  obtain ⟨rs, ending, a', hgives, hfed⟩ := Feed.fed_untilAnswer size
    (P := Waiting window) (f := { f with source := a }) pipeline (fun b hb => by
      obtain ⟨answer, b', hanswer, hfetched⟩ := hb.fetched
      exact ⟨answer, b', hanswer, fun r hr => hb.of_record (hr ▸ hfetched)⟩) hwaiting
  refine ⟨a, rs, ending, a', hrequest, hgives, hsent ▸ hwaiting.left_of_gives hgives, ?_⟩
  rw [retrieveChannel, hrequest]
  exact hfed

/-- Unless it is stopped, a retrieval asks for the channels in their order, and for all of them
where no answer breaks off. -/
theorem retrieveChannels_retrieves (pipeline : Pipeline σ)
    (hstop : ∀ world, isStopped world = false) (window : Window) (keys : List UInt32)
    (hready : f.source.phase = .ready) (hwritable : f.source.link.writable = true) :
    ∃ asked rs ending a', Retrieves window f.source asked rs ending a' ∧ asked <+: keys ∧
      (ending = .ok () → asked = keys) ∧
      Left (f.source.link.sent ++ (asked.map (dataRequest window)).map Request.encode) ending a' ∧
      retrieveChannels pipeline isStopped window keys f =
        .ok (ending.map fun _ => true, f.served pipeline rs a') := by
  -- on the channels still to be asked for; only a session that is ready again comes to the next
  induction keys generalizing f with
  | nil =>
    refine ⟨[], [], .ok (), f.source, .none f.source, List.prefix_rfl, fun _ => rfl, ?_, rfl⟩
    rw [List.map_nil, List.map_nil, List.append_nil]
    exact .ready rfl hready hwritable
  | cons key keys ih =>
    obtain ⟨a, rs, ending, a', hrequest, hgives, hleft, hfirst⟩ :=
      retrieveChannel_gives pipeline window key hready hwritable
    cases ending with
    | error fault =>
      refine ⟨[key], rs, .error fault, a', .last hrequest hgives, ⟨keys, rfl⟩, nofun, hleft, ?_⟩
      rw [retrieveChannels, hstop, hfirst]
      rfl
    | ok _ =>
      cases hleft with
      | ready hsent hready' hwritable' =>
        obtain ⟨asked, rs', ending, a'', hretrieves, ⟨behind, hprefix⟩, hall, hleft, hrest⟩ :=
          ih (f := f.served pipeline rs a') hready' hwritable'
        have hsent : (f.served pipeline rs a').source.link.sent = _ := hsent
        rw [hsent, List.append_assoc] at hleft
        refine ⟨key :: asked, rs ++ rs', ending, a'', .more hrequest hgives hretrieves,
          ⟨behind, congrArg (key :: ·) hprefix⟩, fun h => congrArg (key :: ·) (hall h), hleft, ?_⟩
        rw [retrieveChannels, hstop, hfirst, ← Feed.served_append]
        exact hrest

/-! ### Selecting channels -/

theorem asked_select (hunlisted : a.directory.channels = []) (hready : a.phase = .ready)
    (hwritable : a.link.writable = true) (patterns network : String) :
    Asked .channelListRequest a (a.select patterns network).2 := by
  have hlist := asked_channelList hready hwritable
  rw [select, if_pos hunlisted]
  generalize a.channelList = outcome at hlist ⊢
  obtain ⟨fault | directory, b⟩ := outcome
  · exact hlist
  · obtain ⟨hlink, hphase, hwindow, -⟩ := b.narrow_frame patterns network
    exact hlist.later hlink hphase hwindow

theorem keys_sublist_of_selectChannels {d selected : Directory} {patterns network : String}
    (h : selectChannels d patterns network = .ok selected) :
    selected.keys.Sublist d.keys := by
  obtain ⟨ps, -, rfl, -⟩ := selectChannels_eq_ok_iff.1 h
  exact (Directory.keys_selectBy_sublist _ ps).trans (d.keys_filterByType_sublist _)

theorem keys_sublist_of_select {patterns network : String} {selected : Directory}
    (h : a.select patterns network = (.ok selected, a')) :
    selected.keys.Sublist a'.directory.keys := by
  have hnarrow : ∀ b : Archive, b.narrow patterns network = (.ok selected, a') →
      selected.keys.Sublist a'.directory.keys := by
    intro b hb
    rw [narrow] at hb
    split at hb
    · cases hb
    · next hselect =>
      obtain ⟨hselected, rfl⟩ := Prod.mk.inj hb
      obtain rfl := Except.ok.inj hselected
      exact keys_sublist_of_selectChannels hselect
  rw [select] at h
  split at h
  · split at h
    · cases h
    · exact hnarrow _ h
  · exact hnarrow a h

/-! ### Ends of a retrieval -/

/-- What is sent after the last answer: nothing where the link was lost while it was read. -/
def closing : Except SessionFault Unit → List Request
  | .ok () => [parting (.ok ())]
  | .error fault => if fault.isConnectionFatal then [] else [parting (.error fault)]

/-- How a retrieval ends: its result, the channels whose data was requested, the records that were
handed to the pipeline, and what is sent last. -/
inductive Ended (request : ArchiveRequest) (a : Archive) :
    Except SessionFault Nat → List UInt32 → List Record → List Request → Prop where
  /-- No channels could be selected. -/
  | unselected {fault : SessionFault} {a₁ : Archive}
      (hselect : a.select request.patterns request.network = (.error fault, a₁)) :
      Ended request a (.error fault) [] [] [parting (.error fault)]
  /-- The channels selected were asked for one after the other, until an answer broke off if one
  did. -/
  | retrieved {selected : Directory} {a₁ a₂ : Archive} {asked : List UInt32} {records : List Record}
      {ending : Except SessionFault Unit}
      (hselect : a.select request.patterns request.network = (.ok selected, a₁))
      (horder : selected.keys.Sublist a₁.directory.keys) (hasked : asked <+: selected.keys)
      (hall : ending = .ok () → asked = selected.keys)
      (hretrieves : Retrieves request.window a₁ asked records ending a₂) :
      Ended request a (ending.map fun _ => records.length) asked records (closing ending)

theorem conclude_left {sent : List Bytes} {ending : Except SessionFault Unit}
    (h : Left sent ending f.source) :
    ∃ a', conclude ending f = (ending.map fun _ => f.count, { f with source := a' }) ∧
      a'.phase = .closed ∧ a'.link.sent = sent ++ (closing ending).map Request.encode := by
  generalize hsource : f.source = a at h
  cases h with
  | ready hsent hphase hwritable =>
    subst hsource
    rw [← hsent]
    exact conclude_open (.ok ()) (by simp [hphase]) hwritable
  | refused hsent hopen hwritable hmends =>
    subst hsource
    rw [← hsent, closing, hmends]
    exact conclude_open _ hopen hwritable
  | lost hsent hclosed hfatal =>
    subst hsource
    refine ⟨f.source, ?_, hclosed, ?_⟩
    · rw [conclude, terminate, if_pos hclosed]
      rfl
    · rw [hsent, closing, if_pos hfatal, List.map_nil, List.append_nil]

theorem run_eq {pipeline : Pipeline σ} {request : ArchiveRequest} {world : σ}
    {ending : Except SessionFault Unit} (hvalid : request.validate = .ok ())
    (hwindows : retrieveWindows pipeline isStopped request (.start a world) = .ok (ending, f)) :
    run pipeline isStopped request a world = .ok (conclude ending f) := by
  rw [run, hvalid]
  dsimp only
  rw [hwindows]
  rfl

theorem retrieveWindows_unselected (pipeline : Pipeline σ) (isStopped : σ → Bool)
    {request : ArchiveRequest} {fault : SessionFault} (world : σ)
    (hselect : a.select request.patterns request.network = (.error fault, a')) :
    retrieveWindows pipeline isStopped request (.start a world) =
      .ok (.error fault, .start a' world) := by
  have hselect : (Feed.start a world).source.select request.patterns request.network =
      (.error fault, a') := hselect
  rw [retrieveWindows, hselect]
  rfl

/-- **A retrieval shuts down in order.** Whatever the archive sends, a retrieval of one window that
is not stopped comes to an end and closes its session. It has asked for the channels, then for the
data of some of those selected, from the first on, and last sent what its end demands. The pipeline
was handed what the answers gave, and nothing else. -/
theorem run_ends_in_order (pipeline : Pipeline σ) (request : ArchiveRequest) (world : σ)
    (hvalid : request.validate = .ok ()) (hdelay : request.delay = none)
    (hstop : ∀ world, isStopped world = false) (hready : a.phase = .ready)
    (hwritable : a.link.writable = true) (hunlisted : a.directory.channels = []) :
    ∃ result f asked records last,
      run pipeline isStopped request a world = .ok (result, f) ∧
      Ended request a result asked records last ∧ f.source.phase = .closed ∧
      f.world = records.foldl (serve pipeline) world ∧
      f.source.link.sent = a.link.sent ++
        (.channelListRequest :: (asked.map (dataRequest request.window) ++ last)).map
          Request.encode := by
  have hlisted := asked_select hunlisted hready hwritable request.patterns request.network
  rcases hselect : a.select request.patterns request.network with ⟨fault | selected, a₁⟩
  · have hlisted : Asked .channelListRequest a a₁ := by rwa [hselect] at hlisted
    have hopen : a₁.phase ≠ .closed := by simp [hlisted.phase, hready]
    obtain ⟨a', hconclude, hclosed, hsent⟩ :=
      conclude_open (f := .start a₁ world) (.error fault) hopen hlisted.writable
    have hrun := run_eq hvalid (retrieveWindows_unselected pipeline isStopped world hselect)
    rw [hconclude] at hrun
    refine ⟨_, _, [], [], _, hrun, .unselected hselect, hclosed, rfl, ?_⟩
    have hsource : (Feed.start a₁ world).source.link.sent = _ := hlisted.sent
    rw [hsent, hsource, List.append_assoc]
    rfl
  · have hlisted : Asked .channelListRequest a a₁ := by rwa [hselect] at hlisted
    obtain ⟨asked, records, ending, a₂, hretrieves, hprefix, hall, hleft, hretrieved⟩ :=
      retrieveChannels_retrieves (f := .start a₁ world) pipeline hstop request.window
        selected.keys (hlisted.phase.trans hready) hlisted.writable
    obtain ⟨a', hconclude, hclosed, hsent⟩ :=
      conclude_left (f := (Feed.start a₁ world).served pipeline records a₂) hleft
    have hrun := run_eq hvalid (retrieveWindows_eq ending hdelay hselect hretrieved)
    rw [hconclude] at hrun
    have hcount : ((Feed.start a₁ world).served pipeline records a₂).count = records.length :=
      Nat.zero_add _
    rw [hcount] at hrun
    refine ⟨_, _, asked, records, closing ending, hrun,
      .retrieved hselect (keys_sublist_of_select hselect) hprefix hall hretrieves, hclosed, rfl, ?_⟩
    have hsource : (Feed.start a₁ world).source.link.sent = _ := hlisted.sent
    simp only [hsent, hsource, List.map_cons, List.map_append, List.append_assoc, List.cons_append,
      List.nil_append]

end Archive

namespace Sample

/-- An archive that gives a packet and then says that it has no data. -/
def breakingOff : Archive :=
  let noData := [0x6E, 0x6F, 0x20, 0x64, 0x61, 0x74, 0x61]
  session [channelList, packet 0 0, ⟨MessageKind.error.code, noData, by decide⟩] []

/-- The record is in the pipeline, and the archive is told what ended the session. -/
theorem run_ends_in_order_refused_answer :
    firstSecond.validate = .ok () ∧ firstSecond.delay = none ∧ breakingOff.phase = .ready ∧
      breakingOff.link.writable = true ∧ breakingOff.directory.channels = [] ∧
      ∃ f asked records last,
        Archive.run closedThenCounting (fun _ => false) firstSecond breakingOff [] =
          .ok (.error (.server "no data"), f) ∧
        Archive.Ended firstSecond breakingOff (.error (.server "no data")) asked records last ∧
        f.source.phase = .closed ∧ f.world = [16] ∧
        f.source.link.sent.drop 3 =
          [(Request.terminateSubscription .error "server error: no data").encode] := by
  obtain ⟨result, f, asked, records, last, hrun, hended, hphase, -, -⟩ :=
    Archive.run_ends_in_order (a := breakingOff) closedThenCounting firstSecond [] rfl rfl
      (fun _ => rfl) rfl rfl rfl
  let run := Archive.run closedThenCounting (fun _ => false) firstSecond breakingOff []
  let told : Request := .terminateSubscription .error "server error: no data"
  have houtcome :
      run.toOption.map (fun (result, f) => (result, f.world, f.source.link.sent.drop 3)) =
        some (.error (.server "no data"), [16], [told.encode]) := by decide +kernel
  simp only [run, hrun, Except.toOption, Option.map_some, Option.some.injEq, Prod.mk.injEq]
    at houtcome
  obtain ⟨rfl, hworld, hsent⟩ := houtcome
  exact ⟨rfl, rfl, rfl, rfl, rfl, f, asked, records, last, hrun, hended, hphase, hworld, hsent⟩

end Sample

end SeisFeed.Session
