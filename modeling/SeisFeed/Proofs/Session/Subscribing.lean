import SeisFeed.Proofs.Channel.Listing
import SeisFeed.Proofs.Session.Checking
import SeisFeed.Proofs.Session.Traffic
/-!
# Subscribing

Before a client reads any records it greets the server and hears one message. `Announces` says of
the server's bytes that this message is a channel list, and `Opening` what subscribing comes to:
there are channels wanted among those announced, or there are none, or nothing was announced. The
patterns of a request that was checked are patterns, so only the second of these is the request's
own fault.
-/

namespace SeisFeed.Session

open Delivery (Tracker)
open Wire (Bytes)

theorem Parcel.eq_of_message {p q : Parcel} (h : p.message = q.message) : p = q := by
  obtain ⟨hheader, hbody⟩ := Message.mk.inj h
  have hcode := (Header.mk.inj hheader).1
  cases p
  cases q
  congr

/-- A server's first message: its bytes come before all others. -/
def Incoming.Begins (i : Incoming) (p : Parcel) : Prop :=
  p.encode <+: i.ready

/-- A server announces channels: its first message is a list of them. -/
def Announces (i : Incoming) (cs : List Channel) : Prop :=
  ∃ p, i.Begins p ∧ MessageKind.ofCode? p.code = some .channelList ∧
    Directory.listed? p.body = some cs

namespace Link

variable {link rest : Link} {p : Parcel}

theorem receiveMessage_of_begins (link : Link) (h : link.incoming.Begins p) :
    ∃ rest, receiveMessage link = (.ok p.message, rest) := by
  obtain ⟨ready, hready⟩ := h
  refine ⟨link.withReady ready, ?_⟩
  have hreceive := receiveMessage_append link p ready
  rw [hready] at hreceive
  exact hreceive

theorem begins_carrying (rest : Link) (p : Parcel) : (rest.carrying [p]).incoming.Begins p :=
  ⟨rest.incoming.ready, by simp [carrying, withReady]⟩

theorem eq_of_begins {i : Incoming} {q : Parcel} (hp : i.Begins p) (hq : i.Begins q) : p = q := by
  obtain ⟨rest, hreceive⟩ := receiveMessage_of_begins (.opened i .zero) hp
  obtain ⟨rest', hreceive'⟩ := receiveMessage_of_begins (.opened i .zero) hq
  have hresult := (Prod.mk.inj (hreceive.symm.trans hreceive')).1
  exact Parcel.eq_of_message (Except.ok.inj hresult)

/-- What comes of waiting for a message of a kind: it is the first that the server sends, or the
link does not begin with one of this kind. -/
inductive Expected (kind : MessageKind) (link : Link) : Except SessionFault Bytes → Prop where
  | met {p : Parcel} (hbegins : link.incoming.Begins p)
      (hkind : MessageKind.ofCode? p.code = some kind) : Expected kind link (.ok p.body)
  | missed {fault : SessionFault}
      (hnone : ∀ p, link.incoming.Begins p → MessageKind.ofCode? p.code ≠ some kind)
      (hfault : ∀ reason, fault ≠ .config reason) : Expected kind link (.error fault)

theorem expected_expect (kind : MessageKind) (link : Link) :
    Expected kind link (expect kind link).1 := by
  rw [expect, bind_apply]
  rcases hreceive : receiveMessage link with ⟨fault | m, rest⟩
  · have hfatal : fault.isConnectionFatal = true :=
      failsForGood_receiveMessage link fault (by rw [hreceive])
    refine .missed (fun p hp => ?_) fun reason hreason => ?_
    · obtain ⟨rest', hwhole⟩ := receiveMessage_of_begins link hp
      rw [hreceive] at hwhole
      cases (Prod.mk.inj hwhole).1
    · rw [hreason] at hfatal
      cases hfatal
  · obtain ⟨p, rfl, rfl⟩ := eq_of_receiveMessage hreceive
    have hbegins := begins_carrying rest p
    have hkind : p.message.header.kind? = MessageKind.ofCode? p.code := rfl
    have hnone (hother : MessageKind.ofCode? p.code ≠ some kind) :
        ∀ q, (rest.carrying [p]).incoming.Begins q → MessageKind.ofCode? q.code ≠ some kind := by
      intro q hq
      rwa [← eq_of_begins hbegins hq]
    dsimp only
    rw [hkind]
    split
    · next hmet => exact .met hbegins hmet
    · next hother =>
      split
      · exact .missed (hnone hother) (by simp)
      · exact .missed (hnone hother) (by simp)

end Link

theorem Announces.unique {i : Incoming} {cs cs' : List Channel} (h : Announces i cs)
    (h' : Announces i cs') : cs = cs' := by
  obtain ⟨p, hp, -, hlisted⟩ := h
  obtain ⟨q, hq, -, hlisted'⟩ := h'
  rw [Link.eq_of_begins hp hq, hlisted'] at hlisted
  exact (Option.some.inj hlisted).symm

namespace Subscription

variable {request : StreamRequest} {ps : List Pattern} {tracker : Tracker} {link : Link}

/-- The subscription to what is wanted of the channels announced. -/
def subscription (request : StreamRequest) (ps : List Pattern) (cs : List Channel) : Request :=
  .addTimeSeriesChannels ((wanted ps cs).map Channel.key) request.completion.code request.outFormat
    request.buffered

/-- What subscribing on a link comes to. -/
inductive Opening (request : StreamRequest) (ps : List Pattern) (tracker : Tracker) (link : Link) :
    Except (SessionFault × Link) Subscription → Prop where
  | subscribed {cs : List Channel} {rest : Link} (hannounces : Announces link.incoming cs)
      (hwanted : wanted ps cs ≠ [])
      (hsent : rest.sent =
        link.sent ++ [Request.connect, subscription request ps cs].map Request.encode)
      (hwritable : rest.writable = true) :
      Opening request ps tracker link
        (.ok (opened request tracker (.ofList cs) (selection ps cs) rest))
  | unmatched {cs : List Channel} {reason : String} {rest : Link}
      (hannounces : Announces link.incoming cs) (hwanted : wanted ps cs = [])
      (hsent : rest.sent = link.sent ++ [Request.connect.encode]) :
      Opening request ps tracker link (.error (.config reason, rest))
  | unannounced {fault : SessionFault} {rest : Link} (hnone : ∀ cs, ¬ Announces link.incoming cs)
      (hfault : ∀ reason, fault ≠ .config reason)
      (hsent : rest.sent = link.sent ++ [Request.connect.encode]) :
      Opening request ps tracker link (.error (fault, rest))

theorem opening_openOn (hparse : Pattern.parseList request.patterns request.network = .ok ps)
    (tracker : Tracker) (link : Link) (hwritable : link.writable = true) :
    Opening request ps tracker link (openOn request tracker link) := by
  -- the greeting leaves what the server sends as it is
  have hexpected := Link.expected_expect .channelList (link.after .connect)
  obtain ⟨ready, -, hrest⟩ := Link.draws_expect .channelList (link.after .connect)
  rcases hexpect : Link.expect .channelList (link.after .connect) with ⟨answer, rest⟩
  rw [hexpect] at hexpected hrest
  obtain rfl : rest = (link.after .connect).withReady ready := hrest
  rw [openOn, handshake_eq hexpect hwritable hwritable]
  cases hexpected with
  | missed hnone hfault =>
    refine .unannounced (fun cs => ?_) hfault rfl
    rintro ⟨p, hbegins, hkind, -⟩
    exact hnone p hbegins hkind
  | @met p hbegins hkind =>
    rw [introduced]
    cases hparsed : Directory.parse p.body with
    | error fault =>
      refine .unannounced (fun cs => ?_) (by simp) rfl
      rintro ⟨q, hq, -, hlisted⟩
      rw [← Link.eq_of_begins hbegins hq] at hlisted
      have hok := Directory.parse_eq_ok_iff.2 ⟨cs, hlisted, rfl⟩
      rw [hparsed] at hok
      cases hok
    | ok directory =>
      obtain ⟨cs, hlisted, rfl⟩ := Directory.parse_eq_ok_iff.1 hparsed
      have hannounces : Announces link.incoming cs := ⟨p, hbegins, hkind, hlisted⟩
      dsimp only
      rw [selectChannels_eq hparse]
      by_cases hwanted : wanted ps cs = []
      · rw [if_pos hwanted]
        exact .unmatched hannounces hwanted rfl
      · rw [if_neg hwanted]
        refine .subscribed hannounces hwanted ?_ hwritable
        simp [Link.after, Link.withReady, keys_selection, subscription]

theorem patterns_of_validate (h : request.validate = .ok ()) :
    ∃ ps, Pattern.parseList request.patterns request.network = .ok ps :=
  (checkPatterns_eq_ok_iff.1 (StreamRequest.checks_of_validate h)).2

end Subscription

end SeisFeed.Session
