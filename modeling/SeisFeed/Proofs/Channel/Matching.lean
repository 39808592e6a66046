import SeisFeed.Proofs.Channel.Lookup
import SeisFeed.Proofs.Channel.Spelling
import SeisFeed.Proofs.Text.Caseless
/-!
# What patterns match

A pattern is matched byte by byte. A character of the pattern takes as many bytes as the one it
matches, whatever their case, and no `?` stands for the first byte of one character and the last of
another: so all can be said of characters, except that a character is matched by as many `?` as it
has bytes. Where no `?` meets a character of several bytes this is what is expected, and each `?`
matches one character.
-/

namespace SeisFeed

open Wire (Bytes)

/-! ### Channels -/

/-- What the characters of a pattern's channel match: one that is no `?` itself in either case, and
as many `?` as a character has bytes that character. -/
inductive Fills : List Char → List Char → Prop
  | nil : Fills [] []
  | same {c d : Char} {cs ds : List Char} (hc : c ≠ '?') (hsame : c.toLower = d.toLower)
      (hrest : Fills cs ds) : Fills (c :: cs) (d :: ds)
  | any {d : Char} {cs ds : List Char} (hrest : Fills cs ds) :
      Fills (List.replicate d.utf8Size '?' ++ cs) (d :: ds)

/-- A character of a pattern's channel as it is documented: a `?` matches any character, and every
other itself in either case. -/
def Meets (c d : Char) : Prop :=
  c = '?' ∨ c.toLower = d.toLower

namespace Slot

variable {slots slots' : List Slot} {bytes bytes' : Bytes}

theorem length_of_acceptAll (h : acceptAll slots bytes = true) : bytes.length = slots.length := by
  induction slots generalizing bytes with
  | nil =>
    cases bytes with
    | nil => rfl
    | cons => cases h
  | cons slot slots ih =>
    cases bytes with
    | nil => cases h
    | cons b bytes => exact congrArg (· + 1) (ih (Bool.and_eq_true_iff.1 h).2)

theorem acceptAll_append (h : bytes.length = slots.length) :
    acceptAll (slots ++ slots') (bytes ++ bytes') =
      (acceptAll slots bytes && acceptAll slots' bytes') := by
  induction slots generalizing bytes with
  | nil =>
    obtain rfl := List.eq_nil_of_length_eq_zero h
    rfl
  | cons slot slots ih =>
    cases bytes with
    | nil => cases h
    | cons b bytes => simp [acceptAll, ih (Nat.succ.inj h), Bool.and_assoc]

theorem split_of_acceptAll_append (h : acceptAll (slots ++ slots') bytes = true) :
    ∃ front back, bytes = front ++ back ∧ front.length = slots.length ∧
      acceptAll slots front = true ∧ acceptAll slots' back = true := by
  have hlength := length_of_acceptAll h
  rw [List.length_append] at hlength
  have hfront : (bytes.take slots.length).length = slots.length := by
    rw [List.length_take]
    omega
  rw [← List.take_append_drop slots.length bytes, acceptAll_append hfront,
    Bool.and_eq_true_iff] at h
  exact ⟨_, _, (List.take_append_drop slots.length bytes).symm, hfront, h⟩

theorem acceptAll_any {n : Nat} (h : bytes.length = n) :
    acceptAll (List.replicate n any) bytes = true := by
  induction bytes generalizing n with
  | nil =>
    obtain rfl := h
    rfl
  | cons b bytes ih =>
    obtain rfl := h
    exact ih rfl

theorem acceptAll_bytes_iff {literal : Bytes} :
    acceptAll (literal.map byte) bytes = true ↔
      literal.map Text.lowerByte = bytes.map Text.lowerByte := by
  induction literal generalizing bytes with
  | nil => cases bytes <;> simp [acceptAll]
  | cons b literal ih =>
    cases bytes with
    | nil => simp [acceptAll]
    | cons b' bytes => simp [acceptAll, accepts, Text.sameByteCaseless, ih]

/-! ### Characters -/

theorem map_ofByte_encodeChar {c : Char} (hc : c ≠ '?') :
    (String.utf8EncodeChar c).map ofByte = (String.utf8EncodeChar c).map byte := by
  apply List.map_congr_left
  intro b hb
  rw [ofByte, if_neg]
  rintro rfl
  by_cases h : c.utf8Size = 1
  · rw [String.utf8EncodeChar_eq_singleton h, List.mem_singleton] at hb
    have hcode := (Text.Utf8.toNat_of_narrow h).1
    rw [← hb] at hcode
    exact hc ((Char.ofNat_toNat c).symm.trans (congrArg Char.ofNat hcode.symm))
  · exact absurd (Text.Utf8.le_of_mem_encodeChar h hb) (by decide)

/-- The slots of the characters of a pattern's channel. -/
def ofChars (cs : List Char) : List Slot :=
  (cs.flatMap String.utf8EncodeChar).map ofByte

theorem ofChars_cons (c : Char) (cs : List Char) :
    ofChars (c :: cs) = (String.utf8EncodeChar c).map ofByte ++ ofChars cs := by
  rw [ofChars, List.flatMap_cons, List.map_append]
  rfl

theorem ofChars_wildcards (n : Nat) (cs : List Char) :
    ofChars (List.replicate n '?' ++ cs) = List.replicate n any ++ ofChars cs := by
  induction n with
  | zero => rfl
  | succ n ih =>
    rw [List.replicate_succ, List.cons_append, ofChars_cons, ih]
    rfl

/-- Bytes that go on with a character are accepted by wildcards only. -/
theorem wildcards_of_continues {cs : List Char} {rest : Bytes}
    (hrest : ∀ b ∈ rest, Text.Utf8.Continues b)
    (h : acceptAll (ofChars cs) (rest ++ bytes) = true) :
    ∃ cs', cs = List.replicate rest.length '?' ++ cs' ∧ acceptAll (ofChars cs') bytes = true := by
  induction rest generalizing cs with
  | nil => exact ⟨cs, rfl, h⟩
  | cons b rest ih =>
    cases cs with
    | nil => cases h
    | cons c cs =>
      by_cases hc : c = '?'
      · obtain rfl := hc
        obtain ⟨cs', rfl, haccept⟩ := ih (fun b' hb' => hrest b' (List.mem_cons_of_mem b hb')) h
        exact ⟨cs', rfl, haccept⟩
      · obtain ⟨first, others, hencode, hfirst, -⟩ := Text.Utf8.encodeChar_shape c
        rw [ofChars_cons, map_ofByte_encodeChar hc, hencode] at h
        have hsame : Text.lowerByte first = Text.lowerByte b :=
          beq_iff_eq.1 (Bool.and_eq_true_iff.1 h).1
        have hb := hrest b List.mem_cons_self
        rw [Text.lowerByte_of_le hb.1] at hsame
        exact absurd (Text.continues_lowerByte (hsame ▸ hb)) hfirst

theorem acceptAll_of_fills {cs ds : List Char} (h : Fills cs ds) :
    acceptAll (ofChars cs) (ds.flatMap String.utf8EncodeChar) = true := by
  induction h with
  | nil => rfl
  | @same c d cs ds hc hsame _ ih =>
    have hlength :
        (String.utf8EncodeChar d).length = ((String.utf8EncodeChar c).map byte).length := by
      rw [List.length_map, String.length_utf8EncodeChar, String.length_utf8EncodeChar,
        ← Text.utf8Size_toLower c, hsame, Text.utf8Size_toLower]
    have hbytes := acceptAll_bytes_iff.2 ((Text.map_lowerByte_encodeChar c).trans
      (hsame ▸ (Text.map_lowerByte_encodeChar d).symm))
    rw [ofChars_cons, map_ofByte_encodeChar hc, List.flatMap_cons, acceptAll_append hlength, hbytes,
      ih, Bool.and_self]
  | @any d cs ds _ ih =>
    have hlength := String.length_utf8EncodeChar d
    rw [ofChars_wildcards, List.flatMap_cons,
      acceptAll_append (by rw [List.length_replicate, hlength]), acceptAll_any hlength, ih,
      Bool.and_self]

theorem fills_of_acceptAll {cs ds : List Char}
    (h : acceptAll (ofChars cs) (ds.flatMap String.utf8EncodeChar) = true) : Fills cs ds := by
  induction ds generalizing cs with
  | nil =>
    cases cs with
    | nil => exact .nil
    | cons c cs =>
      obtain ⟨first, others, hencode, -⟩ := Text.Utf8.encodeChar_shape c
      rw [ofChars_cons, hencode] at h
      cases h
  | cons d ds ih =>
    rw [List.flatMap_cons] at h
    cases cs with
    | nil =>
      obtain ⟨first, others, hencode, -⟩ := Text.Utf8.encodeChar_shape d
      rw [hencode] at h
      cases h
    | cons c cs =>
      by_cases hc : c = '?'
      · obtain rfl := hc
        obtain ⟨first, others, hencode, -, hothers⟩ := Text.Utf8.encodeChar_shape d
        rw [hencode] at h
        obtain ⟨cs', rfl, haccept⟩ := wildcards_of_continues hothers h
        have hsize : d.utf8Size = others.length + 1 := by
          rw [← String.length_utf8EncodeChar, hencode, List.length_cons]
        have hfills := Fills.any (d := d) (ih haccept)
        rwa [hsize, List.replicate_succ, List.cons_append] at hfills
      · rw [ofChars_cons, map_ofByte_encodeChar hc] at h
        obtain ⟨front, back, hsplit, hlength, hfront, hback⟩ := split_of_acceptAll_append h
        have hlower := acceptAll_bytes_iff.1 hfront
        have hbytes : (String.utf8EncodeChar c).map Text.lowerByte ++ back.map Text.lowerByte =
            (String.utf8EncodeChar d).map Text.lowerByte ++
              (ds.flatMap String.utf8EncodeChar).map Text.lowerByte := by
          rw [hlower, ← List.map_append, ← List.map_append, hsplit]
        have hsame : c.toLower = d.toLower := Text.toLower_eq_of_prefix hbytes
        have hsize : (String.utf8EncodeChar d).length = front.length := by
          rw [hlength, List.length_map, String.length_utf8EncodeChar, String.length_utf8EncodeChar,
            ← Text.utf8Size_toLower c, hsame, Text.utf8Size_toLower]
        obtain ⟨-, rfl⟩ := List.append_inj hsplit hsize
        exact .same hc hsame (ih hback)

theorem acceptAll_iff_fills {cs ds : List Char} :
    acceptAll (ofChars cs) (ds.flatMap String.utf8EncodeChar) = true ↔ Fills cs ds :=
  ⟨fills_of_acceptAll, acceptAll_of_fills⟩

end Slot

/-- Where no `?` can meet a character of several bytes, each `?` matches one character. -/
theorem fills_iff_meets {cs ds : List Char} (h : (∀ d ∈ ds, d.utf8Size = 1) ∨ '?' ∉ cs) :
    Fills cs ds ↔ List.Forall₂ Meets cs ds := by
  constructor
  · intro hfills
    induction hfills with
    | nil => exact .nil
    | @same c d cs ds _ hsame _ ih =>
      refine .cons (.inr hsame) (ih ?_)
      exact h.imp (fun h d' hd' => h d' (List.mem_cons_of_mem d hd'))
        fun h hmem => h (List.mem_cons_of_mem c hmem)
    | @any d cs ds _ ih =>
      rcases h with hnarrow | hwildcard
      · rw [hnarrow d List.mem_cons_self]
        exact .cons (.inl rfl) (ih (.inl fun d' hd' => hnarrow d' (List.mem_cons_of_mem d hd')))
      · have hpos : d.utf8Size ≠ 0 := d.utf8Size_pos.ne'
        exact absurd (List.mem_append_left cs (List.mem_replicate.2 ⟨hpos, rfl⟩)) hwildcard
  · intro hmeets
    induction hmeets with
    | nil => exact .nil
    | @cons c d cs ds hmeet _ ih =>
      have hrest := ih (h.imp (fun h d' hd' => h d' (List.mem_cons_of_mem d hd'))
        fun h hmem => h (List.mem_cons_of_mem c hmem))
      by_cases hc : c = '?'
      · obtain rfl := hc
        rcases h with hnarrow | hwildcard
        · have hfills := Fills.any (d := d) hrest
          rwa [hnarrow d List.mem_cons_self] at hfills
        · exact absurd List.mem_cons_self hwildcard
      · exact .same hc (hmeet.resolve_left hc) hrest

/-! ### Names -/

namespace Pattern

/-- The station of a pattern matches the station in a name: it is `*`, or the same in either
case. -/
def StationMeets (station found : String) : Prop :=
  station = "*" ∨ station.toList.map Char.toLower = found.toList.map Char.toLower

variable {network station channel name s c : String}

theorem matchesName_ofTexts (hname : SplitAtDot name s c) :
    (ofTexts network station channel).matchesName name = true ↔
      StationMeets station s ∧ Fills channel.toList c.toList := by
  have hstation : ((ofTexts network station channel).station.all (Text.sameCaseless · s)) = true ↔
      StationMeets station s := by
    by_cases hstar : station = "*" <;> simp [ofTexts, StationMeets, hstar, Text.sameCaseless]
  rw [matchesName, (splitName_eq_iff name s c).2 hname, Bool.and_eq_true_iff, hstation,
    ← Slot.acceptAll_iff_fills]
  rfl

/-- A name is matched just where the pattern's station matches its own and the pattern's channel
matches what follows the first dot: one character of the channel each character, whatever their
case, and as many `?` as it has bytes. Where no `?` can meet a character of several bytes, that is
one `?` for one character. -/
theorem matchesName_by_bytes {text defaultNetwork : String} {p : Pattern}
    (h : parse text defaultNetwork = .ok p) :
    ∃ network station channel, Spells defaultNetwork text network station channel ∧
      ∀ name s c, SplitAtDot name s c →
        (p.matchesName name = true ↔ StationMeets station s ∧ Fills channel.toList c.toList) ∧
        ((∀ d ∈ c.toList, d.utf8Size = 1) ∨ '?' ∉ channel.toList →
          (p.matchesName name = true ↔
            StationMeets station s ∧ List.Forall₂ Meets channel.toList c.toList)) := by
  obtain ⟨network, station, channel, hspells, rfl⟩ := parse_eq_ok_iff.1 h
  refine ⟨network, station, channel, hspells, fun name s c hname => ⟨matchesName_ofTexts hname, ?_⟩⟩
  intro hplain
  rw [matchesName_ofTexts hname, fills_iff_meets hplain]

theorem matchesName_by_bytes_wide_character :
    ∃ p, parse " ANMO.b?? " "XX" = .ok p ∧ p.matchesName "anmo.Bé" = true ∧
      StationMeets "ANMO" "anmo" ∧ Fills "b??".toList "Bé".toList ∧
      (p.matchesName "anmo.BhZ" = true ↔
        StationMeets "ANMO" "anmo" ∧ List.Forall₂ Meets "b??".toList "BhZ".toList) := by
  obtain ⟨p, hparse⟩ : ∃ p, parse " ANMO.b?? " "XX" = .ok p := ⟨_, rfl⟩
  have hspelled : Spells "XX" " ANMO.b?? " "XX" "ANMO" "b??" :=
    ⟨⟨_, Text.hasCore_trim " ANMO.b?? ", .inl ⟨Text.divided_splitOn '.' "ANMO.b??", rfl⟩⟩,
      by decide, by decide, by decide⟩
  obtain ⟨network, station, channel, hspells, hmatches⟩ := matchesName_by_bytes hparse
  obtain ⟨rfl, rfl, rfl⟩ := hspells.unique hspelled
  have hwide := (hmatches "anmo.Bé" "anmo" "Bé" ((splitName_eq_iff _ _ _).1 rfl)).1
  have hnarrow := (hmatches "anmo.BhZ" "anmo" "BhZ" ((splitName_eq_iff _ _ _).1 rfl)).2
  have hmatched : p.matchesName "anmo.Bé" = true := by
    obtain rfl := Except.ok.inj hparse
    decide
  have hplain : ∀ d ∈ "BhZ".toList, d.utf8Size = 1 := by simpa using ⟨rfl, rfl, rfl⟩
  exact ⟨p, hparse, hmatched, (hwide.1 hmatched).1, (hwide.1 hmatched).2, hnarrow (.inl hplain)⟩

/-- One `?` does not match a character of two bytes, and two of them do. -/
theorem wildcard_misses_wide_character :
    ∃ one two, parse "*.?" "XX" = .ok one ∧ Spells "XX" "*.?" "XX" "*" "?" ∧
      parse "*.??" "XX" = .ok two ∧ Spells "XX" "*.??" "XX" "*" "??" ∧
      SplitAtDot "X.é" "X" "é" ∧ StationMeets "*" "X" ∧
      List.Forall₂ Meets "?".toList "é".toList ∧ one.matchesName "X.é" = false ∧
      ¬ List.Forall₂ Meets "??".toList "é".toList ∧ two.matchesName "X.é" = true := by
  have hone : Spells "XX" "*.?" "XX" "*" "?" :=
    ⟨⟨_, Text.hasCore_trim "*.?", .inl ⟨Text.divided_splitOn '.' "*.?", rfl⟩⟩,
      by decide, by decide, by decide⟩
  have htwo : Spells "XX" "*.??" "XX" "*" "??" :=
    ⟨⟨_, Text.hasCore_trim "*.??", .inl ⟨Text.divided_splitOn '.' "*.??", rfl⟩⟩,
      by decide, by decide, by decide⟩
  have hmeets : List.Forall₂ Meets "?".toList "é".toList := .cons (.inl rfl) .nil
  have hlonger : ¬ List.Forall₂ Meets "??".toList "é".toList := fun h =>
    absurd h.length_eq (by decide)
  exact ⟨_, _, rfl, hone, rfl, htwo, (splitName_eq_iff _ _ _).1 rfl, .inl rfl, hmeets, by decide,
    hlonger, by decide⟩

end Pattern

end SeisFeed
