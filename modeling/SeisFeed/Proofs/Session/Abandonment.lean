import SeisFeed.Proofs.Session.Discipline
/-!
# Connections that have failed

Some faults leave a connection unusable. A session that meets one while it reads records is closed,
and a closed session leaves its link as it is. But a session that meets one when it asks what there
is stays ready: its next request goes out on the same connection, and the message received for it
may be one that was sent for an earlier one.
-/

namespace SeisFeed.Session

open Wire (Bytes)

namespace Archive

variable {a a' : Archive} {call : Call} {answer : Next}

theorem Made.of_fatal {fault : SessionFault} (h : Made a call (.error fault) a')
    (hfatal : fault.isConnectionFatal = true) :
    (call = .next ∧ a'.phase = .closed) ∨
      (call.asks = true ∧ a'.phase = .ready ∧ a'.link.writable = true ∧
        ∃ r : Request, a'.link.sent = a.link.sent ++ [r.encode]) := by
  cases h with
  | idle _ _ _ _ hfault =>
    rw [hfault fault rfl] at hfatal
    cases hfatal
  | @asked _ _ _ r hasks hready _ hasked =>
    exact .inr ⟨hasks, hasked.phase.trans hready, hasked.writable, r, hasked.sent⟩
  | fetched _ _ hfetched =>
    cases hfetched with
    | refused text => cases hfatal
    | lost => exact .inl ⟨rfl, rfl⟩

end Archive

namespace Course

variable {c c' : Course} {call : Call} {answer : Next}

theorem Orderly.run_of_closed (h : c.Orderly) (hclosed : c.archive.phase = .closed)
    (calls : List Call) :
    ∃ c', c.run calls = .ok c' ∧ c'.archive.link = c.archive.link := by
  induction calls generalizing c with
  | nil => exact ⟨c, rfl, rfl⟩
  | cons call calls ih =>
    obtain ⟨answer, a', hstep, hmade⟩ := h.step call
    obtain ⟨hlink, hphase⟩ := hmade.of_closed hclosed
    obtain ⟨c', hrun, hkept⟩ := ih (h.after hmade) hphase
    refine ⟨c', ?_, hkept.trans hlink⟩
    rw [Course.run, hstep]
    exact hrun

/-- **Which failures end a session.** Along every run of calls on a session that was opened, a fault
that leaves the connection unusable closes the session if it is met by a call for a record, and no
later call touches the link. It can else be met only by a call that asks what there is. That leaves
the session ready, and the channels can be asked for again on the same connection. -/
theorem fatal_fault_ends_reading {credentials : Credentials} {settings : ClientSettings}
    {stopped : Bool} {n n' : Network} {a : Archive}
    (hconnect : Archive.connect credentials settings stopped n = .ok (.ok a, n'))
    {calls : List Call} (hrun : (start a).run calls = .ok c) {fault : SessionFault}
    (hstep : c.step call = .ok (.error fault, c')) (hfatal : fault.isConnectionFatal = true) :
    (call = .next ∧ c'.archive.phase = .closed ∧
      ∀ later, ∃ c'', c'.run later = .ok c'' ∧ c''.archive.link = c'.archive.link) ∨
    (call.asks = true ∧ c'.archive.phase = .ready ∧
      (∃ r : Request, c'.archive.link.sent = c.archive.link.sent ++ [r.encode]) ∧
      ∃ answer c'', c'.step .channelList = .ok (answer, c'') ∧
        c''.archive.link.sent = c'.archive.link.sent ++ [Request.channelListRequest.encode]) := by
  obtain ⟨_, hran, horderly⟩ := (orderly_start hconnect).run calls
  obtain rfl := Except.ok.inj (hran.symm.trans hrun)
  obtain ⟨answer, a', hstepped, hmade⟩ := horderly.step call
  obtain ⟨rfl, rfl⟩ := Prod.mk.inj (Except.ok.inj (hstepped.symm.trans hstep))
  rcases hmade.of_fatal hfatal with ⟨rfl, hclosed⟩ | ⟨hasks, hready, hwritable, hsent⟩
  · exact .inl ⟨rfl, hclosed, (horderly.after hmade).run_of_closed hclosed⟩
  · exact .inr ⟨hasks, hready, hsent, _, _, rfl, (Archive.asked_channelList hready hwritable).sent⟩

end Course

namespace Sample

def fault? : Next → Option SessionFault
  | .error fault => some fault
  | .ok _ => none

theorem error_of_fault? {answer : Next} {fault : SessionFault} (h : fault? answer = some fault) :
    answer = .error fault := by
  cases answer with
  | error _ => rw [Option.some.inj h]
  | ok _ => cases h

/-- The packet that answers a request for data breaks off in its body. -/
theorem fatal_fault_ends_reading_inside_packet :
    let tail := (packet 0 0).encode.take 20
    let calls := [.channelList, .requestData 0x00030100 firstSecond.window]
    ∃ a n' c fault c', Archive.connect firstSecond.credentials .standard false
        (serving [channelList] tail) = .ok (.ok a, n') ∧
      (Course.start a).run calls = .ok c ∧ c.step .next = .ok (.error fault, c') ∧
      fault.isConnectionFatal = true ∧ c'.archive.phase = .closed ∧
      ∃ c'', c'.run calls = .ok c'' ∧ c''.archive.link = c'.archive.link := by
  intro tail calls
  have hconnect := connect_serving [channelList] tail
  obtain ⟨c, hrun, horderly⟩ := (Course.orderly_start hconnect).run calls
  obtain ⟨answer, a', hstep, -⟩ := horderly.step .next
  have hfault : ((Course.start (session [channelList] tail)).run calls >>= fun c =>
      c.step .next).toOption.bind (fun x => fault? x.1) = some (.shortTransfer 38 8) := by
    decide +kernel
  rw [hrun] at hfault
  change (c.step .next).toOption.bind _ = _ at hfault
  rw [hstep] at hfault
  obtain rfl := error_of_fault? hfault
  rcases Course.fatal_fault_ends_reading hconnect hrun hstep rfl with
    ⟨-, hclosed, hlater⟩ | ⟨hasks, -⟩
  · exact ⟨_, _, c, _, _, hconnect, hrun, hstep, rfl, hclosed, hlater calls⟩
  · cases hasks

/-- A packet that was not asked for makes listing the channels fail. The session is not closed, and
the next attempt sends its request and receives the list that was sent for the first. -/
theorem channels_asked_for_again :
    ∃ a n' fault, Archive.connect firstSecond.credentials .standard false
        (serving [packet 0 0, channelList] []) = .ok (.ok a, n') ∧
      a.channelList.1 = .error fault ∧ fault.isConnectionFatal = true ∧
      a.channelList.2.phase ≠ .closed ∧
      a.channelList.2.channelList.2.link.sent ≠ a.channelList.2.link.sent ∧
      a.channelList.2.channelList.2.link.incoming ≠ a.channelList.2.link.incoming := by
  let a := session [packet 0 0, channelList] []
  have hfault : a.channelList.1 = .error (.protocol (.unexpectedMessage .channelList 1)) := rfl
  exact ⟨a, _, _, connect_serving _ _, hfault, rfl, by decide +kernel, by decide +kernel,
    by decide +kernel⟩

end Sample

end SeisFeed.Session
