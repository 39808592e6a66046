import SeisFeed.Proofs.Session.Framing
import SeisFeed.Proofs.Text.Parts
import SeisFeed.Proofs.Wire.Chunks
import SeisFeed.Proofs.Wire.Undoing
import SeisFeed.Request
/-!
# Requests on the wire

A server reads back the request that a client wrote, if the form of a message can carry its values:
a text that has zero characters or is too long for its field is cut, and the margins of a message
are trimmed. Of the requests with fields of their own, all but the end of a session say by their
bytes where they end, so no strict prefix of the body is read and nothing behind it matters; the
text that ends a session is all that is left of its body.
-/

namespace SeisFeed

open Wire (Bytes FitsField Read Field)

/-! ### The text of a message -/

theorem messageText_encode {s : String} (hzero : '\x00' ∉ s.toList) (hblank : Text.Trimmed s) :
    messageText (Text.Utf8.encode s) = s := by
  have hbytes := Wire.takeWhile_encode hzero 0
  rw [List.replicate_zero, List.append_nil] at hbytes
  rw [messageText, hbytes, Text.Utf8.decode_encode, Text.trim_of_trimmed hblank]

namespace Request

/-- The texts of a request fit into its form: a user name into its field, and the text that ends a
session into what is left after zero bytes and blank margins are taken off. -/
def TextsFit : Request → Prop
  | connectRequest username _ _ => FitsField usernameLength username
  | terminateSubscription _ text => '\x00' ∉ text.toList ∧ Text.Trimmed text
  | _ => True

/-- The kinds of request whose fields say where the body ends. -/
def delimited : List MessageKind :=
  [.addTimeSeriesChannels, .connectRequest, .precisListRequest, .dataRequest]

/-! ### Bodies field by field -/

theorem body_addTimeSeriesChannels (keys : List UInt32) (shortTermCompletion outFormat : Int32)
    (buffered : Bool) :
    (addTimeSeriesChannels keys shortTermCompletion outFormat buffered).body =
      Wire.int32 (.ofNat keys.length) ++ (keys.flatMap Wire.word32 ++
        (Wire.int32 shortTermCompletion ++ (Wire.int32 outFormat ++
          Wire.int32 (if buffered then 1 else 0)))) := by
  simp [body, fields, Field.encodeAll, Field.encode, List.flatMap_map]

theorem undoes_addTimeSeriesChannels {keys : List UInt32} (hkeys : keys.length < 2147483648)
    (shortTermCompletion outFormat : Int32) (buffered : Bool) :
    Read.Undoes readAddTimeSeriesChannels
      (addTimeSeriesChannels keys shortTermCompletion outFormat buffered).body
      (addTimeSeriesChannels keys shortTermCompletion outFormat buffered) := by
  have hcount : (Int32.ofNat keys.length).toNatClampNeg = keys.length :=
    Int32.toNatClampNeg_ofNat_of_lt hkeys
  have hlist : Read.Undoes _ (keys.flatMap Wire.word32) (keys.map id) :=
    Read.undoes_many fun key _ => Read.undoes_word32 key
  rw [List.map_id, ← hcount] at hlist
  have hflag : decide ((if buffered then 1 else 0 : Int32) ≠ 0) = buffered := by
    cases buffered <;> rfl
  have hread : Read.Undoes readAddTimeSeriesChannels _ (addTimeSeriesChannels keys
      shortTermCompletion outFormat ((if buffered then 1 else 0 : Int32) ≠ 0)) :=
    (Read.undoes_int32 _).bind (hlist.bind ((Read.undoes_int32 _).bind
      ((Read.undoes_int32 _).bind ((Read.undoes_int32 _).map _))))
  rwa [hflag, ← body_addTimeSeriesChannels] at hread

theorem undoes_connectRequest {username : String} (husername : FitsField usernameLength username)
    (connectionTime : Int32) (checksum : UInt32) :
    Read.Undoes readConnectRequest (connectRequest username connectionTime checksum).body
      (connectRequest username connectionTime checksum) := by
  have hbody : (connectRequest username connectionTime checksum).body =
      Wire.textField username usernameLength ++ (Wire.int32 archiveProtocolVersion ++
        (Wire.int32 connectionTime ++ Wire.word32 checksum)) := by
    simp [body, fields, Field.encodeAll, Field.encode]
  rw [hbody]
  exact (Read.undoes_text husername).bind ((Read.undoes_int32 _).bind
    ((Read.undoes_int32 _).bind ((Read.undoes_word32 _).map _)))

theorem undoes_precisListRequest (instrumentId dataType channel : Int32) :
    Read.Undoes readPrecisListRequest (precisListRequest instrumentId dataType channel).body
      (precisListRequest instrumentId dataType channel) := by
  have hbody : (precisListRequest instrumentId dataType channel).body =
      Wire.int32 instrumentId ++ (Wire.int32 dataType ++ Wire.int32 channel) := by
    simp [body, fields, Field.encodeAll, Field.encode]
  rw [hbody]
  exact (Read.undoes_int32 _).bind ((Read.undoes_int32 _).bind ((Read.undoes_int32 _).map _))

theorem undoes_dataRequest (key : UInt32) (start stop : Int32) :
    Read.Undoes readDataRequest (dataRequest key start stop).body (dataRequest key start stop) := by
  have hbody : (dataRequest key start stop).body =
      Wire.word32 key ++ (Wire.int32 start ++ Wire.int32 stop) := by
    simp [body, fields, Field.encodeAll, Field.encode]
  rw [hbody]
  exact (Read.undoes_word32 _).bind ((Read.undoes_int32 _).bind ((Read.undoes_int32 _).map _))

/-- The text is what is left of the body, so this is read back only where nothing follows. -/
theorem run_readTerminateSubscription (reason : ShutdownReason) {text : String}
    (hzero : '\x00' ∉ text.toList) (hblank : Text.Trimmed text) :
    readTerminateSubscription.run (terminateSubscription reason text).body =
      some (terminateSubscription reason text) := by
  have hcode : (ShutdownReason.ofCode? reason.code).getD .error = reason := by
    cases reason <;> rfl
  have hbody : (terminateSubscription reason text).body =
      Wire.int32 reason.code ++ Text.Utf8.encode text := by
    simp [body, fields, Field.encodeAll, Field.encode]
  rw [hbody, readTerminateSubscription, Read.run, Wire.Cursor.start, Read.bind_apply,
    (Read.undoes_int32 reason.code).whole]
  show some (terminateSubscription _ (messageText (Text.Utf8.encode text))) = _
  rw [hcode, messageText_encode hzero hblank]

/-! ### Requests -/

variable {r : Request} {reading : Read Request} {body : Bytes}

theorem parse_of_run (hreading : reading? r.kind = some reading) {request : Request}
    (hrun : reading.run body = some request) : parse r.kind.code body = .ok request := by
  simp [parse, hreading, hrun]

theorem parse_of_run_none (hreading : reading? r.kind = some reading)
    (hrun : reading.run body = none) :
    parse r.kind.code body = .error (.frameTooShort (body.length + 1) body.length) := by
  simp [parse, hreading, hrun]

theorem length_lt_of_body {keys : List UInt32} {shortTermCompletion outFormat : Int32}
    {buffered : Bool}
    (h : (addTimeSeriesChannels keys shortTermCompletion outFormat buffered).body.length <
      UInt32.size) : keys.length < 2147483648 := by
  have hsize : UInt32.size = 4294967296 := rfl
  have hlist : (keys.flatMap Wire.word32).length = keys.length * 4 :=
    Wire.length_flatMap_of_width fun key _ => Wire.length_word32 key
  simp only [body_addTimeSeriesChannels, List.length_append, hlist] at h
  omega

theorem undoes_of_delimited (hkind : r.kind ∈ delimited) (hlength : r.body.length < UInt32.size)
    (htexts : r.TextsFit) :
    ∃ reading, reading? r.kind = some reading ∧ reading.Undoes r.body r := by
  cases r with
  | connect | requestPending | channelListRequest | terminateSubscription =>
    simp [kind, delimited] at hkind
  | addTimeSeriesChannels keys shortTermCompletion outFormat buffered =>
    exact ⟨_, rfl, undoes_addTimeSeriesChannels (length_lt_of_body hlength) _ _ _⟩
  | connectRequest username connectionTime checksum =>
    exact ⟨_, rfl, undoes_connectRequest htexts _ _⟩
  | precisListRequest instrumentId dataType channel =>
    exact ⟨_, rfl, undoes_precisListRequest _ _ _⟩
  | dataRequest key start stop => exact ⟨_, rfl, undoes_dataRequest _ _ _⟩

theorem parse_body (hlength : r.body.length < UInt32.size) (htexts : r.TextsFit) :
    parse r.kind.code r.body = .ok r := by
  by_cases hkind : r.kind ∈ delimited
  · obtain ⟨reading, hreading, hundoes⟩ := undoes_of_delimited hkind hlength htexts
    exact parse_of_run hreading hundoes.run
  · cases r with
    | connect | requestPending | channelListRequest => rfl
    | terminateSubscription reason text =>
      exact parse_of_run (r := .terminateSubscription reason text) rfl
        (run_readTerminateSubscription reason htexts.1 htexts.2)
    | addTimeSeriesChannels | connectRequest | precisListRequest | dataRequest =>
      simp [kind, delimited] at hkind

/-- A request whose values its form can carry is framed with its type code and length, and a server
reads the same request back; if its fields say where it ends, every strict prefix of its body is one
byte short and nothing behind its body matters. -/
theorem written_and_read_back (hlength : r.body.length < UInt32.size) (htexts : r.TextsFit) :
    (∃ header, Header.decode r.encode = .ok header ∧ header.code = r.kind.code ∧
      header.length.toNat = r.body.length) ∧
    r.encode.drop headerLength = r.body ∧
    parse r.kind.code r.body = .ok r ∧
    (r.kind ∈ delimited →
      (∀ n < r.body.length, parse r.kind.code (r.body.take n) = .error (.frameTooShort (n + 1) n)) ∧
      ∀ extra, parse r.kind.code (r.body ++ extra) = .ok r) := by
  have hheader : (Header.ofBody r.kind r.body).length.toNat = r.body.length :=
    UInt32.toNat_ofNat_of_lt' hlength
  have hframe : headerLength = (Header.ofBody r.kind r.body).encode.length :=
    (Session.length_encode_header _).symm
  refine ⟨⟨_, Session.decode_header_append _ _, rfl, hheader⟩, ?_, parse_body hlength htexts, ?_⟩
  · rw [encode, encodeMessage, hframe, List.drop_left]
  · intro hkind
    obtain ⟨reading, hreading, hundoes⟩ := undoes_of_delimited hkind hlength htexts
    refine ⟨fun n hn => ?_, fun extra => parse_of_run hreading (hundoes.run_append extra)⟩
    have hparse := parse_of_run_none hreading (hundoes.run_take hn)
    rwa [List.length_take_of_le (Nat.le_of_lt hn)] at hparse

theorem written_and_read_back_full_username :
    let r := connectRequest "müller-sta9" 1700000000 0x2BA6EC87
    r.body.length < UInt32.size ∧ r.TextsFit ∧ r.kind ∈ delimited ∧
      parse r.kind.code r.body = .ok r ∧
      parse r.kind.code (r.body.take 23) = .error (.frameTooShort 24 23) ∧
      parse r.kind.code (r.body ++ [0]) = .ok r := by
  have hlength : (connectRequest "müller-sta9" 1700000000 0x2BA6EC87).body.length = 24 := by decide
  have hsize : 24 < UInt32.size := by decide
  have htexts : (connectRequest "müller-sta9" 1700000000 0x2BA6EC87).TextsFit := by
    exact ⟨by decide, by decide⟩
  obtain ⟨-, -, hparse, hdelimited⟩ := written_and_read_back (by omega) htexts
  obtain ⟨hcut, hmore⟩ := hdelimited (by decide)
  exact ⟨by omega, htexts, by decide, hparse, hcut 23 (by omega), hmore [0]⟩

end Request

end SeisFeed
