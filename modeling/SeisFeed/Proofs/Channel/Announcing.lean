import SeisFeed.Channel.Precis
import SeisFeed.Proofs.Channel.Listing
import SeisFeed.Proofs.Wire.Counted
/-!
# Channel lists and precis lists

Both are counted lists, of entries of 16 and of 24 bytes, whose names may fill their field of twelve
bytes. `ListCodec` is what holds of either: a list is read back, a strict prefix of it is refused,
and what follows a list that is accepted changes nothing. They differ in what they keep: a directory
only the first entry of each key, a precis list all. Neither ever fills in a value that was not
there.
-/

namespace SeisFeed

open Wire (Bytes FitsField Read Field counted parseCounted)

/-- What is written as a list is read as one. `keeps` says what is made of its entries, and `refuse`
makes a fault of the reason why a body is no list. -/
structure ListCodec {α β : Type} (parse : Bytes → Except ProtocolFault β) (write : List α → Bytes)
    (fits : α → Prop) (keeps : List α → β → Prop) (refuse : String → ProtocolFault) : Prop where
  read_back : ∀ as : List α, as.length < UInt32.size → (∀ a ∈ as, fits a) →
    ∃ b, parse (write as) = .ok b ∧ keeps as b
  cut : ∀ as : List α, as.length < UInt32.size → ∀ n < (write as).length,
    ∃ reason, parse ((write as).take n) = .error (refuse reason)
  more : ∀ (body extra : Bytes) (b : β), parse body = .ok b → parse (body ++ extra) = .ok b

theorem listCodec_counted {α β : Type} {refuse : String → ProtocolFault} {width : Nat}
    {r : Read β} {value : Bytes → β} (hr : r.Reads width value) {write : α → Bytes} {kept : α → β}
    {fits : α → Prop} (hwidth : ∀ a, (write a).length = width)
    (hundoes : ∀ a, fits a → r.Undoes (write a) (kept a)) :
    ListCodec (parseCounted refuse width r) (counted write) fits (fun as bs => bs = as.map kept)
      refuse where
  read_back _ hlength hfits :=
    ⟨_, Wire.parseCounted_counted hlength (fun a ha => hundoes a (hfits a ha))
      fun a _ => hwidth a, rfl⟩
  cut _ hlength _ hn := Wire.parseCounted_take hlength (fun a _ => hwidth a) hn
  more _ extra _ h := Wire.parseCounted_append hr h extra

/-- What is made of the entries once they are read changes neither which bodies are accepted nor
how others are refused. -/
theorem ListCodec.map {α β γ : Type} {parse : Bytes → Except ProtocolFault β}
    {write : List α → Bytes} {fits : α → Prop} {keeps : List α → β → Prop}
    {keeps' : List α → γ → Prop} {refuse : String → ProtocolFault}
    (h : ListCodec parse write fits keeps refuse) (g : β → γ)
    (hkeeps : ∀ as b, keeps as b → keeps' as (g b)) :
    ListCodec (fun body => (parse body).map g) write fits keeps' refuse where
  read_back as hlength hfits := by
    obtain ⟨b, hparse, hb⟩ := h.read_back as hlength hfits
    exact ⟨g b, by rw [hparse]; rfl, hkeeps as b hb⟩
  cut as hlength n hn := by
    obtain ⟨reason, hparse⟩ := h.cut as hlength n hn
    exact ⟨reason, by rw [hparse]; rfl⟩
  more body extra c hc := by
    cases hparse : parse body with
    | error fault =>
      rw [hparse] at hc
      cases hc
    | ok b =>
      rw [hparse] at hc
      rw [h.more body extra b hparse]
      exact hc

/-! ### Entries -/

namespace Channel

theorem reads_read : Read.Reads Channel.read channelEntryLength fun bs =>
    ⟨Wire.toWord32 (bs.take 4), Text.Utf8.decode ((bs.drop 4).takeWhile (· ≠ 0)), none⟩ :=
  Read.reads_word32.bind fun _ => (Read.reads_text nameLength).map _

theorem encodeAll_fields (c : Channel) :
    Field.encodeAll c.fields = Wire.word32 c.key ++ Wire.textField c.name nameLength := by
  simp [fields, Field.encodeAll, Field.encode]

theorem length_encodeAll_fields (c : Channel) :
    (Field.encodeAll c.fields).length = channelEntryLength := by
  rw [encodeAll_fields, List.length_append, Wire.length_word32, Wire.length_textField]
  rfl

theorem undoes_read {c : Channel} (h : FitsField nameLength c.name) :
    Channel.read.Undoes (Field.encodeAll c.fields) { c with network := none } := by
  rw [encodeAll_fields]
  exact (Read.undoes_word32 _).bind ((Read.undoes_text h).map _)

/-- The body of a channel list, repeated keys included. -/
def encodeList (cs : List Channel) : Bytes :=
  Field.encodeAll (.word32 (UInt32.ofNat cs.length) :: cs.flatMap fields)

theorem encodeList_eq (cs : List Channel) :
    encodeList cs = counted (fun c => Field.encodeAll c.fields) cs := by
  rw [encodeList, Field.encodeAll, List.flatMap_cons, List.flatMap_assoc]
  rfl

/-- Reads an entry with the fields of another in place of those that are not there. -/
def readOr (fallback : Channel) : Read Channel := do
  let key ← Read.word32.orElse fallback.key
  let name ← (Read.text nameLength).orElse fallback.name
  return ⟨key, name, none⟩

theorem agrees_readOr (fallback : Channel) :
    Read.Agrees channelEntryLength (readOr fallback) Channel.read :=
  (Read.agrees_orElse Read.reads_word32 _).bind Read.reads_word32 fun _ =>
    (Read.agrees_orElse (Read.reads_text nameLength) _).map _

end Channel

namespace Precis

theorem reads_read : Read.Reads Precis.read precisEntryLength fun bs =>
    ⟨Wire.toWord32 (bs.take 4), Text.Utf8.decode (((bs.drop 4).take 12).takeWhile (· ≠ 0)),
      Wire.toInt32 (((bs.drop 4).drop 12).take 4), Wire.toInt32 (((bs.drop 4).drop 12).drop 4)⟩ :=
  Read.reads_word32.bind fun _ => (Read.reads_text nameLength).bind fun _ =>
    Read.reads_int32.bind fun _ => Read.reads_int32.map _

theorem encodeAll_fields (p : Precis) :
    Field.encodeAll p.fields = Wire.word32 p.key ++ (Wire.textField p.name nameLength ++
      (Wire.int32 p.startTime ++ Wire.int32 p.endTime)) := by
  simp [fields, Field.encodeAll, Field.encode]

theorem length_encodeAll_fields (p : Precis) :
    (Field.encodeAll p.fields).length = precisEntryLength := by
  simp only [encodeAll_fields, List.length_append, Wire.length_word32, Wire.length_textField,
    Wire.length_int32]
  rfl

theorem undoes_read {p : Precis} (h : FitsField nameLength p.name) :
    Precis.read.Undoes (Field.encodeAll p.fields) p := by
  rw [encodeAll_fields]
  exact (Read.undoes_word32 _).bind ((Read.undoes_text h).bind ((Read.undoes_int32 _).bind
    ((Read.undoes_int32 _).map _)))

theorem encodeList_eq (ps : List Precis) :
    encodeList ps = counted (fun p => Field.encodeAll p.fields) ps := by
  rw [encodeList, Field.encodeAll, List.flatMap_cons, List.flatMap_assoc]
  rfl

/-- Reads an entry with the fields of another in place of those that are not there. -/
def readOr (fallback : Precis) : Read Precis := do
  let key ← Read.word32.orElse fallback.key
  let name ← (Read.text nameLength).orElse fallback.name
  let startTime ← Read.int32.orElse fallback.startTime
  let endTime ← Read.int32.orElse fallback.endTime
  return ⟨key, name, startTime, endTime⟩

theorem agrees_readOr (fallback : Precis) :
    Read.Agrees precisEntryLength (readOr fallback) Precis.read :=
  (Read.agrees_orElse Read.reads_word32 _).bind Read.reads_word32 fun _ =>
    (Read.agrees_orElse (Read.reads_text nameLength) _).bind (Read.reads_text nameLength) fun _ =>
      (Read.agrees_orElse Read.reads_int32 _).bind Read.reads_int32 fun _ =>
        (Read.agrees_orElse Read.reads_int32 _).map _

end Precis

/-! ### Lists -/

/-- The entries of a channel list, each read by a step, once there are bytes for all of them. -/
def parseChannels (r : Read Channel) : Bytes → Except ProtocolFault (List Channel) :=
  parseCounted .invalidChannelList channelEntryLength r

/-- The entries of a precis list, each read by a step, once there are bytes for all of them. -/
def parsePrecis (r : Read Precis) : Bytes → Except ProtocolFault (List Precis) :=
  parseCounted .invalidPrecisList precisEntryLength r

theorem Directory.parse_eq (body : Bytes) :
    parse body = (parseChannels Channel.read body).map ofList := by
  rw [parseChannels, Wire.parseCounted_eq Channel.reads_read, parse]
  rcases Read.word32 (.start body) with ⟨_ | count, c⟩
  · rfl
  · rcases hread : Read.many Channel.read count.toNat c with ⟨_ | cs, rest⟩ <;>
      simp [readEntries, hread, Except.map]

theorem Precis.parseList_eq (body : Bytes) : parseList body = parsePrecis Precis.read body := by
  rw [parsePrecis, Wire.parseCounted_eq Precis.reads_read, parseList]
  rcases Read.word32 (.start body) with ⟨_ | count, c⟩
  · rfl
  · rcases hread : Read.many read count.toNat c with ⟨_ | ps, rest⟩ <;> simp [hread]

theorem firstPerKey_of_nodup {seen : List UInt32} {cs : List Channel}
    (hdistinct : (cs.map Channel.key).Nodup) (hnew : ∀ c ∈ cs, c.key ∉ seen) :
    firstPerKey seen cs = cs := by
  induction cs generalizing seen with
  | nil => rfl
  | cons c cs ih =>
    rw [List.map_cons, List.nodup_cons] at hdistinct
    rw [firstPerKey, if_neg (hnew c List.mem_cons_self), ih hdistinct.2]
    intro d hd hseen
    rcases List.mem_cons.1 hseen with hsame | hseen
    · exact hdistinct.1 (hsame ▸ List.mem_map_of_mem hd)
    · exact hnew d (List.mem_cons_of_mem c hd) hseen

theorem Directory.channels_ofList (cs : List Channel) :
    (ofList cs).channels = cs.eraseDupsBy fun c c' => c.key == c'.key :=
  (firstPerKey_eq_eraseDupsBy [] cs).trans (by simp)

theorem Directory.ofList_channels (d : Directory) : ofList d.channels = d := by
  have hsame : firstPerKey [] d.channels = d.channels := firstPerKey_of_nodup d.distinct (by simp)
  cases d
  simpa [ofList] using hsame

theorem listCodec_channels :
    ListCodec (parseChannels Channel.read) Channel.encodeList
      (fun c => FitsField nameLength c.name)
      (fun cs cs' => cs' = cs.map fun c => { c with network := none }) .invalidChannelList := by
  rw [funext Channel.encodeList_eq]
  exact listCodec_counted Channel.reads_read Channel.length_encodeAll_fields
    fun _ h => Channel.undoes_read h

theorem listCodec_precis :
    ListCodec Precis.parseList Precis.encodeList (fun p => FitsField nameLength p.name)
      (fun ps ps' => ps' = ps) .invalidPrecisList := by
  have hkeeps : (fun ps ps' : List Precis => ps' = ps) = fun ps ps' => ps' = ps.map fun p => p := by
    simp only [List.map_id']
  rw [funext Precis.encodeList_eq, funext Precis.parseList_eq, hkeeps]
  exact listCodec_counted Precis.reads_read Precis.length_encodeAll_fields
    fun _ h => Precis.undoes_read h

theorem listCodec_directory :
    ListCodec Directory.parse Channel.encodeList (fun c => FitsField nameLength c.name)
      (fun cs d => d.channels = (cs.map fun c => { c with network := none }).eraseDupsBy
        fun c c' => c.key == c'.key) .invalidChannelList := by
  rw [funext Directory.parse_eq]
  apply listCodec_channels.map Directory.ofList
  rintro cs _ rfl
  exact Directory.channels_ofList _

theorem Directory.parse_toBody {d : Directory} (hlength : d.channels.length < UInt32.size)
    (hentries : ∀ c ∈ d.channels, FitsField nameLength c.name ∧ c.network = none) :
    parse d.toBody = .ok d := by
  obtain ⟨_, hread, rfl⟩ :=
    listCodec_channels.read_back d.channels hlength fun c hc => (hentries c hc).1
  have hsame : (d.channels.map fun c => { c with network := none }) = d.channels := by
    rw [List.map_congr_left (g := id), List.map_id]
    intro c hc
    have hnone := (hentries c hc).2
    cases c
    simpa using hnone.symm
  rw [hsame] at hread
  have hbody : d.toBody = Channel.encodeList d.channels := rfl
  rw [parse_eq, hbody, hread]
  exact congrArg Except.ok d.ofList_channels

/-- A channel list is read back with the first entry of each key, and its networks are not on the
wire; a precis list is read back with all its entries. A strict prefix of either is refused, and
bytes behind a list that is accepted are ignored. What an entry is taken to hold where it is not
there makes no difference: no list is accepted that does not hold all its entries. -/
theorem lists_written_and_read_back :
    ListCodec Directory.parse Channel.encodeList (fun c => FitsField nameLength c.name)
      (fun cs d => d.channels = (cs.map fun c => { c with network := none }).eraseDupsBy
        fun c c' => c.key == c'.key) .invalidChannelList ∧
    (∀ d : Directory, d.channels.length < UInt32.size →
      (∀ c ∈ d.channels, FitsField nameLength c.name ∧ c.network = none) →
      Directory.parse d.toBody = .ok d) ∧
    ListCodec Precis.parseList Precis.encodeList (fun p => FitsField nameLength p.name)
      (fun ps ps' => ps' = ps) .invalidPrecisList ∧
    (∀ fallback body,
      (parseChannels (Channel.readOr fallback) body).map .ofList = Directory.parse body) ∧
    ∀ fallback body, parsePrecis (Precis.readOr fallback) body = Precis.parseList body := by
  refine ⟨listCodec_directory, fun d => d.parse_toBody, listCodec_precis, ?channels, ?precis⟩
  case channels =>
    intro fallback body
    rw [Directory.parse_eq, parseChannels, parseChannels,
      Wire.parseCounted_congr Channel.reads_read (Channel.agrees_readOr fallback)]
  case precis =>
    intro fallback body
    rw [Precis.parseList_eq, parsePrecis, parsePrecis,
      Wire.parseCounted_congr Precis.reads_read (Precis.agrees_readOr fallback)]

theorem lists_written_and_read_back_repeated_key :
    let first : Channel := ⟨7, "STATION1.BHZ", some "N"⟩
    let again : Channel := ⟨7, "ST2.HHZ", none⟩
    let other : Channel := ⟨8, "mü.Z", none⟩
    let body := Channel.encodeList [first, again, other]
    (∃ d, Directory.parse body = .ok d ∧ d.channels = [{ first with network := none }, other] ∧
      Directory.parse (body ++ [0]) = .ok d) ∧
    ∃ reason, Directory.parse (body.take 51) = .error (.invalidChannelList reason) := by
  intro first again other body
  obtain ⟨hcodec, -⟩ := lists_written_and_read_back
  have hlength : [first, again, other].length < UInt32.size := by decide
  have hfits : ∀ c ∈ [first, again, other], FitsField nameLength c.name := by
    simp only [List.forall_mem_cons, FitsField, first, again, other]
    decide
  obtain ⟨d, hparse, hd⟩ := hcodec.read_back _ hlength hfits
  exact ⟨⟨d, hparse, hd, hcodec.more _ [0] d hparse⟩, hcodec.cut _ hlength 51 (by decide)⟩

end SeisFeed
