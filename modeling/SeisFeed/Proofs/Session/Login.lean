import SeisFeed.Proofs.Channel.Listing
import SeisFeed.Proofs.Session.Retrying
import SeisFeed.Proofs.Session.Traffic
import SeisFeed.Session.Archive
/-!
# Opening a session with an archive

An archive first sends a token, and the login is bound to it. What it sends before it is ready is
passed over, unless it is an error; then it is asked for its channels, and those that a request
wants are selected. Nothing of this reads a byte further than the list of the channels. Whatever an
archive sends, a session that was opened has sent its login and nothing else.
-/

namespace SeisFeed.Session

open Wire (Bytes)

/-- A message that says neither that an archive is ready nor that something is wrong. -/
structure Parcel.Passive (m : Parcel) : Prop where
  ready : MessageKind.ofCode? m.code ≠ some .ready
  error : MessageKind.ofCode? m.code ≠ some .error

/-- Messages that an archive sends until it is ready for a request. -/
structure Reply where
  packets : List Parcel
  ready : Parcel
  passive : ∀ m ∈ packets, m.Passive
  isReady : MessageKind.ofCode? ready.code = some .ready

def Reply.messages (reply : Reply) : List Parcel :=
  reply.packets ++ [reply.ready]

namespace Link

variable {rest : Link}

theorem toInt32_int32 (i : Int32) : Wire.toInt32 (Wire.int32 i) = i := by
  simp [Wire.toInt32, Wire.int32]

theorem receiveInt32_append (link : Link) (i : Int32) (ready : Bytes) :
    receiveInt32 (link.withReady (Wire.int32 i ++ ready)) = (.ok i, link.withReady ready) := by
  have hreceive := receive_append link (Wire.int32 i) ready
  rw [Wire.int32, Wire.length_word32] at hreceive
  rw [receiveInt32, bind_apply, Wire.int32, hreceive]
  show (Except.ok (Wire.toInt32 (Wire.int32 i)), link.withReady ready) = _
  rw [toInt32_int32]

end Link

namespace Archive

variable {rest : Link}

/-! ### Logging in -/

theorem loginTurn_passive {m : Parcel} (ms : List Parcel) (h : m.Passive) :
    loginTurn (rest.carrying (m :: ms)) = .again (rest.carrying ms) := by
  have hkind : m.message.header.kind? = MessageKind.ofCode? m.code := rfl
  rw [loginTurn, Link.receiveMessage_carrying]
  dsimp only
  rw [hkind]
  split
  · next hready => exact absurd hready h.ready
  · next herror => exact absurd herror h.error
  · rfl

theorem loginTurn_ready {m : Parcel} (ms : List Parcel)
    (h : MessageKind.ofCode? m.code = some .ready) :
    loginTurn (rest.carrying (m :: ms)) = .answer (.ok ()) (rest.carrying ms) := by
  have hkind : m.message.header.kind? = some .ready := h
  rw [loginTurn, Link.receiveMessage_carrying]
  simp only [hkind]

theorem untilReady (greeting : Reply) (ms : List Parcel) :
    untilAnswer Link.size (fun link => .ok (loginTurn link))
        (rest.carrying (greeting.messages ++ ms)) = .ok (.ok (), rest.carrying ms) := by
  obtain ⟨packets, ready, hpassive, hready⟩ := greeting
  induction packets with
  | nil => exact untilAnswer_answer (congrArg Except.ok (loginTurn_ready ms hready))
  | cons m packets ih =>
    have hturn : loginTurn (rest.carrying (m :: ((packets ++ [ready]) ++ ms))) =
        .again (rest.carrying ((packets ++ [ready]) ++ ms)) :=
      loginTurn_passive _ (hpassive m List.mem_cons_self)
    have hless := Link.size_carrying_lt rest m ((packets ++ [ready]) ++ ms)
    exact (untilAnswer_again (congrArg Except.ok hturn) hless).trans
      (ih fun x hx => hpassive x (List.mem_cons_of_mem m hx))

def loginRequest (credentials : Credentials) (token : Int32) : Request :=
  .connectRequest credentials.username token (Checksum.crc32 (Text.Utf8.encode
    s!"{credentials.username}{archiveProtocolVersion.toInt}{token.toInt}{credentials.password}"))

theorem login_eq {credentials : Credentials} (h : credentials.validate = .ok ()) (token : Int32) :
    Request.login credentials.username credentials.password token =
      .ok (loginRequest credentials token) := by
  rw [Credentials.validate, refuseIf] at h
  rw [Request.login]
  split at h
  · cases h
  · next hlength =>
    rw [if_neg hlength]
    rfl

/-- What an archive sends on a connection: a token, a greeting until it is ready, and more. -/
def welcome (token : Int32) (greeting : Reply) (ms : List Parcel) (tail : Bytes) : Bytes :=
  Wire.int32 token ++ (Parcel.stream (greeting.messages ++ ms) ++ tail)

theorem openOn_welcome {credentials : Credentials} (hcredentials : credentials.validate = .ok ())
    (token : Int32) (greeting : Reply) (ms : List Parcel) (hfree : rest.Free) :
    openOn credentials (rest.withReady (welcome token greeting ms rest.incoming.ready)) =
      .ok (.ok (loggedIn token ((rest.after (loginRequest credentials token)).carrying ms))) := by
  have htoken : Link.receiveInt32
      (rest.withReady (welcome token greeting ms rest.incoming.ready)) =
        (.ok token, rest.carrying (greeting.messages ++ ms)) :=
    Link.receiveInt32_append rest token _
  have hsend := (hfree.carrying (greeting.messages ++ ms)).sendRequest
    (loginRequest credentials token)
  have hgreet : greet credentials
      (rest.withReady (welcome token greeting ms rest.incoming.ready)) =
        (.ok token,
          (rest.after (loginRequest credentials token)).carrying (greeting.messages ++ ms)) := by
    rw [greet, Link.bind_apply, htoken]
    simp only [Link.bind_apply, sendLogin, login_eq hcredentials, Link.liftProtocol_ok, hsend]
    rfl
  rw [openOn, hgreet]
  simp only [untilReady greeting ms, Except.map]

theorem connect_welcome {credentials : Credentials} (hcredentials : credentials.validate = .ok ())
    (settings : ClientSettings) {n : Network} {token : Int32} {greeting : Reply} {ms : List Parcel}
    {tail : Bytes} {closes : Bool} {coming : List (Except SessionFault Incoming)}
    (hcoming : n.coming = .ok ⟨welcome token greeting ms tail, [], closes⟩ :: coming) :
    connect credentials settings false n =
      .ok (.ok (loggedIn token (((Link.opened ⟨tail, [], closes⟩ settings.readTimeout).after
        (loginRequest credentials token)).carrying ms)), { n with coming := coming }) := by
  let rest := Link.opened ⟨tail, [], closes⟩ settings.readTimeout
  have hopened : Link.opened ⟨welcome token greeting ms tail, [], closes⟩ settings.readTimeout =
      rest.withReady (welcome token greeting ms rest.incoming.ready) := rfl
  have hopen := openOn_welcome hcredentials token greeting ms
    (Link.free_opened tail closes settings.readTimeout)
  rw [← hopened] at hopen
  rw [connect, hcredentials]
  show (n.connectWithRetry settings false >>= _) = _
  rw [Network.connectWithRetry_of_server settings hcoming]
  show (openOn credentials _ >>= _) = _
  rw [hopen]
  rfl

/-! ### What opening a session has sent -/

section

variable {credentials : Credentials} {settings : ClientSettings} {stopped : Bool} {n n' : Network}
  {link link' : Link} {token : Int32} {a : Archive}

theorem kind_of_login {username password : String} {login : Request}
    (h : Request.login username password token = .ok login) : login.kind = .connectRequest := by
  rw [Request.login] at h
  split at h
  · cases h
  · obtain rfl := Except.ok.inj h
    rfl

theorem sent_of_greet (hopen : link.writable = true) (hnone : link.sent = [])
    (h : greet credentials link = (.ok token, link')) :
    ∃ login : Request, login.kind = .connectRequest ∧ link'.sent = [login.encode] ∧
      link'.writable = true := by
  rw [greet, Link.bind_apply] at h
  rcases hreceive : Link.receiveInt32 link with ⟨fault | received, mid⟩
  · rw [hreceive] at h
    cases (Prod.mk.inj h).1
  obtain ⟨ready, -, hmid⟩ := Link.draws_receiveInt32 link
  rw [hreceive] at h hmid
  obtain rfl : mid = link.withReady ready := hmid
  dsimp only at h
  rw [Link.bind_apply, sendLogin, Link.bind_apply] at h
  cases hlogin : Request.login credentials.username credentials.password received with
  | error fault =>
    rw [hlogin] at h
    cases (Prod.mk.inj h).1
  | ok login =>
    have hopen : (link.withReady ready).writable = true := hopen
    obtain ⟨sent, hsend, hsent, hwritable⟩ := Link.sendRequest_of_writable hopen login
    rw [hlogin, Link.liftProtocol_ok] at h
    dsimp only at h
    rw [hsend] at h
    obtain ⟨-, rfl⟩ := Prod.mk.inj h
    have hsent : sent.sent = link.sent ++ [login.encode] := hsent
    rw [hnone] at hsent
    exact ⟨login, kind_of_login hlogin, hsent, hwritable⟩

theorem loginTurn_frame (link : Link) :
    (loginTurn link).state.sent = link.sent ∧ (loginTurn link).state.writable = link.writable := by
  rcases hreceive : Link.receiveMessage link with ⟨fault | m, rest⟩
  · obtain ⟨hsent, hwritable, -⟩ := Link.receiveMessage_frame hreceive
    rw [loginTurn, hreceive]
    exact ⟨hsent, hwritable⟩
  · obtain ⟨hsent, hwritable, -⟩ := Link.receiveMessage_frame hreceive
    rw [loginTurn, hreceive]
    dsimp only
    split <;> exact ⟨hsent, hwritable⟩

theorem eq_loggedIn_of_openOn (hopen : link.writable = true) (hnone : link.sent = [])
    (h : openOn credentials link = .ok (.ok a)) :
    ∃ token last, ∃ login : Request, a = loggedIn token last ∧ login.kind = .connectRequest ∧
      last.sent = [login.encode] ∧ last.writable = true := by
  rw [openOn] at h
  rcases hgreet : greet credentials link with ⟨fault | token, greeted⟩
  · rw [hgreet] at h
    cases h
  rw [hgreet] at h
  obtain ⟨login, hkind, hsent, hwritable⟩ := sent_of_greet hopen hnone hgreet
  obtain ⟨⟨result, last⟩, hready, h⟩ := ok_of_map h
  cases result with
  | error fault => cases h
  | ok _ =>
    have hkept : ∀ {before : Link} {outcome : Turn (Except SessionFault Unit) Link},
        (before.sent = [login.encode] ∧ before.writable = true) →
          (.ok (loginTurn before) : Except Halt _) = .ok outcome →
            outcome.state.sent = [login.encode] ∧ outcome.state.writable = true := by
      rintro before outcome ⟨hsent, hwritable⟩ hturn
      rw [← Except.ok.inj hturn, (loginTurn_frame before).1, (loginTurn_frame before).2]
      exact ⟨hsent, hwritable⟩
    obtain ⟨before, hbefore, hturn⟩ := untilAnswer_invariant
      (P := fun link => link.sent = [login.encode] ∧ link.writable = true)
      (fun _ _ => hkept) ⟨hsent, hwritable⟩ hready
    exact ⟨token, last, login, (Except.ok.inj h).symm, hkind, hkept hbefore hturn⟩

theorem eq_loggedIn_of_connect (h : connect credentials settings stopped n = .ok (.ok a, n')) :
    ∃ token link, ∃ login : Request, a = loggedIn token link ∧ login.kind = .connectRequest ∧
      link.sent = [login.encode] ∧ link.writable = true := by
  rw [connect] at h
  cases hvalid : credentials.validate with
  | error fault =>
    rw [hvalid] at h
    cases h
  | ok _ =>
    rw [hvalid] at h
    obtain ⟨⟨result, n₁⟩, hconnect, hopened⟩ := ok_of_bind h
    cases result with
    | error fault => cases hopened
    | ok link =>
      obtain ⟨outcome, hopen, hreturned⟩ := ok_of_bind hopened
      cases outcome with
      | error lost => cases hreturned
      | ok opened =>
        obtain ⟨incoming, rfl⟩ := Network.opened_of_connectWithRetry hconnect
        obtain ⟨hsame, -⟩ := Prod.mk.inj (Except.ok.inj hreturned)
        obtain rfl := Except.ok.inj hsame
        exact eq_loggedIn_of_openOn rfl rfl hopen

end

/-! ### Selecting channels -/

/-- A session that is ready for a request, with nothing asked and nothing left unread but some
messages. -/
structure Idles (rest : Link) (ms : List Parcel) (a : Archive) : Prop where
  phase : a.phase = .ready
  link : a.link = rest.carrying ms
  free : rest.Free

theorem ask_carrying {a : Archive} {m : Parcel} {ms : List Parcel} {kind : MessageKind}
    (h : a.Idles rest (m :: ms)) (r : Request) (hkind : MessageKind.ofCode? m.code = some kind) :
    a.ask r kind = (.ok m.body, { a with link := (rest.after r).carrying ms }) := by
  rw [ask, h.link, Link.bind_apply, (h.free.carrying _).sendRequest, Link.carrying_after]
  simp only [Link.expect_carrying ms hkind]

theorem select_carrying {a : Archive} {listing : Parcel} {ms : List Parcel} {directory : Directory}
    {patterns network : String} {parsed : List Pattern} (h : a.Idles rest (listing :: ms))
    (hnone : a.directory.channels = [])
    (hkind : MessageKind.ofCode? listing.code = some .channelList)
    (hparse : Directory.parse listing.body = .ok directory)
    (hpatterns : Pattern.parseList patterns network = .ok parsed)
    (hmatched : ((timeSeries directory).selectBy parsed).channels ≠ []) :
    ∃ a' : Archive, a.select patterns network = (.ok ((timeSeries directory).selectBy parsed), a') ∧
      a'.Idles (rest.after .channelListRequest) ms ∧
      a'.selected = (timeSeries directory).selectBy parsed := by
  have hselect : selectChannels directory patterns network =
      .ok ((timeSeries directory).selectBy parsed) :=
    selectChannels_eq_ok_iff.2 ⟨parsed, hpatterns, rfl, hmatched⟩
  have hask := ask_carrying h .channelListRequest hkind
  rw [select, if_pos hnone, channelList, if_pos h.phase, hask]
  simp only [hparse, narrow, setSelected, hselect]
  exact ⟨_, rfl, ⟨h.phase, rfl, h.free.after _⟩, rfl⟩

end Archive

end SeisFeed.Session
