import SeisFeed.Proofs.Session.Calls
/-!
# One request at a time

Along every run of calls a session requests data only when its last request has been answered, and
it ends once. A `Course` is a session together with the number of messages its calls for a record
have received that say that the archive is ready. `Orderly` says how this number, the requests sent
and the phase of the session go together between two calls; every call keeps it.
-/

namespace SeisFeed.Session

open Time (Window)
open Wire (Bytes)

/-! ### Courses -/

/-- A session after some calls, and how many messages its calls for a record have received that say
that the archive is ready. -/
structure Course where
  archive : Archive
  readies : Nat

namespace Course

def start (a : Archive) : Course :=
  ⟨a, 0⟩

/-- How many requests for data were sent. -/
def requests (c : Course) : Nat :=
  (c.archive.link.sentOf .dataRequest).length

/-- The course after a call that leaves a session. -/
def after (c : Course) (call : Call) (a : Archive) : Course where
  archive := a
  readies :=
    match call with
    | .next => c.readies + Link.readiesHeard a.link c.archive.link
    | _ => c.readies

def step (c : Course) (call : Call) : Except Halt (Next × Course) :=
  (c.archive.call call).map fun (answer, a) => (answer, c.after call a)

def run (c : Course) : List Call → Except Halt Course
  | [] => .ok c
  | call :: calls =>
    match c.step call with
    | .error halt => .error halt
    | .ok (_, c) => c.run calls

variable {c : Course} {call : Call} {answer : Next} {a' : Archive} {link link' : Link}

/-- Only the last message sent may be one that ends the session. -/
def EndsOnce (link : Link) : Prop :=
  ∀ bytes ∈ link.sent.dropLast, kindOf? bytes ≠ some .terminateSubscription

/-- The client can send and has not ended the session. -/
structure Talks (link : Link) : Prop where
  writable : link.writable = true
  unended : link.sentOf .terminateSubscription = []

/-- How a session stands between two calls. -/
inductive Orderly (c : Course) : Prop where
  /-- All requests for data have been answered. -/
  | ready (hphase : c.archive.phase = .ready) (hwindow : c.archive.window = none)
      (hanswered : c.requests = c.readies) (htalks : Talks c.archive.link)
  /-- All have been answered but the last, which was for the session's window. -/
  | waiting {key : UInt32} {window : Window}
      (hphase : c.archive.phase = .requesting ∨ c.archive.phase = .receiving)
      (hwindow : c.archive.window = some window)
      (hlast : (c.archive.link.sentOf .dataRequest).getLast? =
        some (Archive.dataRequest window key).encode)
      (hwaiting : c.requests = c.readies + 1) (htalks : Talks c.archive.link)
  | closed (hphase : c.archive.phase = .closed) (hends : EndsOnce c.archive.link)

/-! ### What a course keeps -/

theorem Talks.of_same (h : Talks link) (hsent : link'.sent = link.sent)
    (hwritable : link'.writable = link.writable) : Talks link' :=
  ⟨hwritable.trans h.writable, (Link.sentOf_of_sent hsent _).trans h.unended⟩

theorem Talks.concat (h : Talks link) {r : Request} (hsent : link'.sent = link.sent ++ [r.encode])
    (hwritable : link'.writable = true) (hkind : r.kind ≠ .terminateSubscription) : Talks link' :=
  ⟨hwritable, by rw [Link.sentOf_concat hsent, h.unended, if_neg hkind, List.append_nil]⟩

theorem Talks.kind_ne (h : Talks link) {bytes : Bytes} (hbytes : bytes ∈ link.sent) :
    kindOf? bytes ≠ some .terminateSubscription := by
  have hnone := List.filter_eq_nil_iff.1 h.unended bytes hbytes
  simpa using hnone

theorem Talks.endsOnce (h : Talks link) (hsent : link'.sent = link.sent) : EndsOnce link' := by
  intro bytes hbytes
  rw [hsent] at hbytes
  exact h.kind_ne ((List.dropLast_sublist _).subset hbytes)

theorem Talks.endsOnce_concat (h : Talks link) {last : Bytes}
    (hsent : link'.sent = link.sent ++ [last]) : EndsOnce link' := by
  intro bytes hbytes
  rw [hsent, List.dropLast_concat] at hbytes
  exact h.kind_ne hbytes

theorem requests_of_sent {d : Course} (h : d.archive.link.sent = c.archive.link.sent) :
    d.requests = c.requests := by
  rw [requests, requests, Link.sentOf_of_sent h]

theorem requests_after_of_concat {r : Request}
    (h : a'.link.sent = c.archive.link.sent ++ [r.encode]) :
    (c.after call a').requests = c.requests + if r.kind = .dataRequest then 1 else 0 := by
  have hlink : (c.after call a').archive.link = a'.link := rfl
  rw [requests, requests, hlink, Link.sentOf_concat h, List.length_append]
  split <;> rfl

theorem readies_after_of_link (hlink : a'.link = c.archive.link) :
    (c.after call a').readies = c.readies := by
  cases call with
  | next =>
    show c.readies + Link.readiesHeard a'.link c.archive.link = c.readies
    rw [hlink, Link.readiesHeard_self, Nat.add_zero]
  | _ => rfl

theorem readies_after_of_asks (hasks : call.asks = true) :
    (c.after call a').readies = c.readies := by
  cases call with
  | next => cases hasks
  | _ => rfl

theorem Orderly.going (h : c.Orderly) : c.archive.Going := by
  cases h with
  | ready hphase _ _ htalks => exact ⟨fun _ => htalks.writable, by simp [hphase]⟩
  | waiting _ hwindow _ _ htalks => exact ⟨fun _ => htalks.writable, fun _ => ⟨_, hwindow⟩⟩
  | closed hphase => exact ⟨fun h => absurd hphase h, by simp [hphase]⟩

theorem Orderly.of_ready (h : c.Orderly) (hready : c.archive.phase = .ready) :
    c.archive.window = none ∧ c.requests = c.readies ∧ Talks c.archive.link := by
  cases h with
  | ready _ hwindow hanswered htalks => exact ⟨hwindow, hanswered, htalks⟩
  | waiting hphase => simp [hready] at hphase
  | closed hphase => simp [hready] at hphase

theorem Orderly.of_waiting (h : c.Orderly)
    (hphase : c.archive.phase = .requesting ∨ c.archive.phase = .receiving) :
    c.requests = c.readies + 1 ∧ Talks c.archive.link := by
  cases h with
  | ready hready => simp [hready] at hphase
  | waiting _ _ _ hwaiting htalks => exact ⟨hwaiting, htalks⟩
  | closed hclosed => simp [hclosed] at hphase

theorem Orderly.talks (h : c.Orderly) (hopen : c.archive.phase ≠ .closed) :
    Talks c.archive.link := by
  cases h with
  | ready _ _ _ htalks => exact htalks
  | waiting _ _ _ _ htalks => exact htalks
  | closed hphase => exact absurd hphase hopen

theorem Orderly.waits_on {d : Course} (h : c.Orderly)
    (hphase : c.archive.phase = .requesting ∨ c.archive.phase = .receiving)
    (hphase' : d.archive.phase = .requesting ∨ d.archive.phase = .receiving)
    (hwindow : d.archive.window = c.archive.window)
    (hsent : d.archive.link.sent = c.archive.link.sent)
    (hwritable : d.archive.link.writable = c.archive.link.writable)
    (hreadies : d.readies = c.readies) : d.Orderly := by
  cases h with
  | ready hready => simp [hready] at hphase
  | closed hclosed => simp [hclosed] at hphase
  | @waiting key window _ hsome hlast hwaiting htalks =>
    have hlast' : (d.archive.link.sentOf .dataRequest).getLast? =
        some (Archive.dataRequest window key).encode := by
      rw [Link.sentOf_of_sent hsent, hlast]
    refine .waiting hphase' (hwindow.trans hsome) hlast' ?_ (htalks.of_same hsent hwritable)
    rw [requests_of_sent hsent, hreadies, hwaiting]

theorem Orderly.of_same (h : c.Orderly) (hlink : a'.link = c.archive.link)
    (hphase : a'.phase = c.archive.phase) (hwindow : a'.window = c.archive.window) :
    (c.after call a').Orderly := by
  have hsent : a'.link.sent = c.archive.link.sent := by rw [hlink]
  have hwritable : a'.link.writable = c.archive.link.writable := by rw [hlink]
  have hreadies : (c.after call a').readies = c.readies := readies_after_of_link hlink
  have hrequests : (c.after call a').requests = c.requests := requests_of_sent hsent
  cases h with
  | ready hready hnone hanswered htalks =>
    refine .ready (hphase.trans hready) (hwindow.trans hnone) ?_ (htalks.of_same hsent hwritable)
    rw [hrequests, hreadies, hanswered]
  | waiting hwaits hsome hlast hwaiting htalks =>
    exact (Orderly.waiting hwaits hsome hlast hwaiting htalks).waits_on hwaits
      (hphase.symm ▸ hwaits) hwindow hsent hwritable hreadies
  | closed hclosed hends =>
    refine .closed (hphase.trans hclosed) ?_
    rw [EndsOnce, show (c.after call a').archive.link = c.archive.link from hlink]
    exact hends

theorem Orderly.after_fetched {window : Window} (h : c.Orderly)
    (hphase : c.archive.phase = .requesting ∨ c.archive.phase = .receiving)
    (hfetched : Archive.Fetched window c.archive answer a') : (c.after .next a').Orderly := by
  have hreadies : (c.after .next a').readies =
      c.readies + Link.readiesHeard a'.link c.archive.link := rfl
  have hpassed : ∀ {ps : List Parcel}, c.archive.Passes ps a' → (c.after .next a').Orderly := by
    intro ps hpasses
    obtain ⟨hsent, hwritable⟩ := hpasses.sent_eq
    refine h.waits_on hphase ?_ hpasses.alike.window hsent hwritable ?_
    · rcases hpasses.alike.phase with hsame | hreceiving
      · exact hsame.symm ▸ hphase
      · exact .inr hreceiving
    · rw [hreadies, hpasses.readiesHeard_eq (Nat.le_refl _), Link.readiesHeard_self, Nat.add_zero]
  cases hfetched with
  | record hpasses => exact hpassed hpasses
  | refused _ hpasses => exact hpassed hpasses
  | @ready b rest ps p hpasses hlink hready =>
    obtain ⟨hsent, hwritable⟩ := hpasses.sent_eq
    rw [hlink] at hsent hwritable
    -- of the messages heard only the last says that the archive is ready
    have hone : Link.readiesHeard rest c.archive.link = 1 := by
      rw [hpasses.readiesHeard_eq, hlink, Link.readiesHeard_of_ready hready]
      rw [hlink]
      exact Nat.le_of_lt (Link.size_carrying_lt rest p [])
    obtain ⟨hwaiting, htalks⟩ := h.of_waiting hphase
    refine .ready rfl rfl ?_ (htalks.of_same hsent hwritable)
    rw [requests_of_sent hsent, hwaiting, hreadies, hone]
  | @lost fault b rest ps hpasses hreceive =>
    obtain ⟨hsent, -, -⟩ := Link.receiveMessage_frame hreceive
    obtain ⟨-, htalks⟩ := h.of_waiting hphase
    exact .closed rfl (htalks.endsOnce (hsent.trans hpasses.sent_eq.1))

theorem Orderly.after (h : c.Orderly) (hmade : Archive.Made c.archive call answer a') :
    (c.after call a').Orderly := by
  cases hmade with
  | idle hlink hphase hwindow => exact h.of_same hlink hphase hwindow
  | fetched hphase _ hfetched => exact h.after_fetched hphase hfetched
  | @asked _ _ _ r hasks hready hkind hasked =>
    have hdata : r.kind ≠ .dataRequest := by rcases hkind with hkind | hkind <;> simp [hkind]
    have hend : r.kind ≠ .terminateSubscription := by
      rcases hkind with hkind | hkind <;> simp [hkind]
    obtain ⟨hnone, hanswered, htalks⟩ := h.of_ready hready
    refine .ready (hasked.phase.trans hready) (hasked.window.trans hnone) ?_
      (htalks.concat hasked.sent hasked.writable hend)
    rw [requests_after_of_concat hasked.sent, if_neg hdata, hanswered,
      readies_after_of_asks hasks, Nat.add_zero]
  | @requested key window _ hready hphase hwindow hsent hwritable =>
    have hkind : (Archive.dataRequest window key).kind = .dataRequest := rfl
    have hend : (Archive.dataRequest window key).kind ≠ .terminateSubscription := nofun
    obtain ⟨-, hanswered, htalks⟩ := h.of_ready hready
    have hlast : (a'.link.sentOf .dataRequest).getLast? =
        some (Archive.dataRequest window key).encode := by
      rw [Link.sentOf_concat hsent, if_pos hkind]
      exact List.getLast?_concat
    refine .waiting (.inl hphase) hwindow hlast ?_ (htalks.concat hsent hwritable hend)
    rw [requests_after_of_concat hsent, if_pos hkind, hanswered]
    rfl
  | ended hopen hphase hsent =>
    exact .closed hphase ((h.talks hopen).endsOnce_concat hsent)

theorem Orderly.answered_of_lt (h : c.Orderly) (hmade : Archive.Made c.archive call answer a')
    (hmore : c.requests < (c.after call a').requests) : c.requests = c.readies := by
  cases hmade with
  | asked _ hready => exact (h.of_ready hready).2.1
  | requested hready => exact (h.of_ready hready).2.1
  | idle hlink =>
    exact absurd (requests_of_sent (congrArg Link.sent hlink)) (Nat.ne_of_gt hmore)
  | fetched _ _ hfetched => exact absurd (requests_of_sent hfetched.sent_eq) (Nat.ne_of_gt hmore)
  | @ended reason text _ _ _ hsent =>
    have hkind : (Request.terminateSubscription reason text).kind ≠ .dataRequest := nofun
    rw [requests_after_of_concat hsent, if_neg hkind] at hmore
    exact absurd hmore (Nat.lt_irrefl _)

theorem Orderly.step (h : c.Orderly) (call : Call) :
    ∃ answer a', c.step call = .ok (answer, c.after call a') ∧
      Archive.Made c.archive call answer a' := by
  obtain ⟨answer, a', hcall, hmade⟩ := Archive.made h.going call
  refine ⟨answer, a', ?_, hmade⟩
  rw [Course.step, hcall]
  rfl

theorem Orderly.run (h : c.Orderly) (calls : List Call) :
    ∃ c', c.run calls = .ok c' ∧ c'.Orderly := by
  induction calls generalizing c with
  | nil => exact ⟨c, rfl, h⟩
  | cons call calls ih =>
    obtain ⟨answer, a', hstep, hmade⟩ := h.step call
    obtain ⟨c', hrun, hc'⟩ := ih (h.after hmade)
    refine ⟨c', ?_, hc'⟩
    rw [Course.run, hstep]
    exact hrun

/-! ### Runs from the start -/

theorem orderly_start {credentials : Credentials} {settings : ClientSettings} {stopped : Bool}
    {n n' : Network} {a : Archive}
    (h : Archive.connect credentials settings stopped n = .ok (.ok a, n')) : (start a).Orderly := by
  obtain ⟨token, link, login, rfl, hkind, hsent, hwritable⟩ := Archive.eq_loggedIn_of_connect h
  have hsent : link.sent = ([] : List Bytes) ++ [login.encode] := hsent
  have hnone : ∀ kind, login.kind ≠ kind → link.sentOf kind = [] := by
    intro kind hother
    rw [Link.sentOf, hsent, List.nil_append, List.filter_singleton, kindOf?_encode]
    simp [hother]
  have hdata : (start (Archive.loggedIn token link)).requests = 0 := by
    rw [requests]
    exact congrArg List.length (hnone .dataRequest (by simp [hkind]))
  exact .ready rfl rfl hdata ⟨hwritable, hnone .terminateSubscription (by simp [hkind])⟩

/-- **Data is requested once at a time.** Whatever the archive sends, a run of calls on a session
that was opened leaves it ready with every request for data answered, or waiting for the answer to
the last one, or closed. The next call takes back nothing that was sent. It does not touch the link
of a closed session, and it requests data only where every earlier request has been answered. A
record that it answers is what the last message decodes to in the channels selected, cut to the
window under way, and has samples left and a rate. -/
theorem request_discipline {credentials : Credentials} {settings : ClientSettings} {stopped : Bool}
    {n n' : Network} {a : Archive}
    (hconnect : Archive.connect credentials settings stopped n = .ok (.ok a, n'))
    (calls : List Call) :
    ∃ c, (start a).run calls = .ok c ∧ c.Orderly ∧
      ∀ call, ∃ answer c', c.step call = .ok (answer, c') ∧ c'.Orderly ∧
        c.archive.link.sent <+: c'.archive.link.sent ∧
        (c.archive.phase = .closed → c'.archive.link = c.archive.link) ∧
        (c.requests < c'.requests → c.requests = c.readies) ∧
        ∀ r, answer = .ok (some r) →
          ∃ window p decoded, c.archive.Delivers c'.archive window p decoded r := by
  obtain ⟨c, hrun, hc⟩ := (orderly_start hconnect).run calls
  refine ⟨c, hrun, hc, fun call => ?_⟩
  obtain ⟨answer, a', hstep, hmade⟩ := hc.step call
  refine ⟨answer, c.after call a', hstep, hc.after hmade, hmade.sent_prefix,
    fun hclosed => (hmade.of_closed hclosed).1, hc.answered_of_lt hmade, ?_⟩
  rintro r rfl
  exact hmade.delivers

end Course

namespace Sample

/-- An archive that lets a client log in, sends some messages and part of another, and closes. -/
def serving (ms : List Parcel) (tail : Bytes) : Network :=
  .ofServers "PFO" [⟨Archive.welcome 1700000000 greeting ms tail, [], true⟩]

def session (ms : List Parcel) (tail : Bytes) : Archive :=
  let rest := Link.opened ⟨tail, [], true⟩ ClientSettings.standard.readTimeout
  .loggedIn 1700000000
    ((rest.after (Archive.loginRequest firstSecond.credentials 1700000000)).carrying ms)

theorem connect_serving (ms : List Parcel) (tail : Bytes) :
    Archive.connect firstSecond.credentials .standard false (serving ms tail) =
      .ok (.ok (session ms tail), { serving ms tail with coming := [] }) :=
  Archive.connect_welcome rfl .standard rfl

def standing (c : Course) : ArchivePhase × Nat × Nat :=
  (c.archive.phase, c.requests, c.readies)

/-- A record of the reply has been read, and the archive is not ready yet: a second request for data
is not sent. -/
theorem request_discipline_inside_reply :
    let request := Call.requestData 0x00030100 firstSecond.window
    ∃ a n' c, Archive.connect firstSecond.credentials .standard false
        (serving (channelList :: reply.messages) []) = .ok (.ok a, n') ∧
      (Course.start a).run [.channelList, request, .next, request] = .ok c ∧ c.Orderly ∧
      standing c = (.receiving, 1, 0) := by
  intro request
  let calls := [.channelList, request, .next, request]
  let ms := channelList :: reply.messages
  obtain ⟨c, hrun, horderly, -⟩ := Course.request_discipline (connect_serving ms []) calls
  have hstanding : ((Course.start (session ms [])).run calls).toOption.map standing =
      some (.receiving, 1, 0) := by decide +kernel
  rw [hrun] at hstanding
  exact ⟨_, _, c, connect_serving ms [], hrun, horderly, Option.some.inj hstanding⟩

end Sample

end SeisFeed.Session
