import SeisFeed.Wire.Field
/-!
# Reading fields of fixed width

`Reads r width value` says all there is to say of a step that reads fields of fixed width: it
answers exactly if that many bytes lie ahead, it passes just these, and its answer is what `value`
makes of them. Steps in sequence read the sum of their widths. With it, what was written is read
back once the words are: `toWord32_word32`. Bytes that were read as a word are those that the word
is written as: `word32_toWord32`.
-/

namespace SeisFeed.Wire

/-! ### Words -/

@[simp] theorem length_bigEndian (width n : Nat) : (bigEndian width n).length = width := by
  induction width generalizing n with
  | zero => rfl
  | succ width ih => simp [bigEndian, ih]

theorem ofBigEndian_concat (bytes : Bytes) (b : UInt8) :
    ofBigEndian (bytes ++ [b]) = ofBigEndian bytes * 256 + b.toNat := by
  simp [ofBigEndian]

theorem ofBigEndian_bigEndian (width n : Nat) :
    ofBigEndian (bigEndian width n) = n % Nat.pow 256 width := by
  induction width generalizing n with
  | zero => simp [bigEndian, ofBigEndian, Nat.mod_one]
  | succ width ih =>
    have hpow : Nat.pow 256 (width + 1) = 256 * Nat.pow 256 width :=
      (Nat.pow_succ (n := 256) (m := width)).trans (Nat.mul_comm _ _)
    have hdigit : (UInt8.ofNat n).toNat = n % 256 := UInt8.toNat_ofNat'
    rw [bigEndian, ofBigEndian_concat, ih, hdigit, hpow, Nat.mod_mul, Nat.mul_comm, Nat.add_comm]

@[simp] theorem length_word32 (w : UInt32) : (word32 w).length = 4 :=
  length_bigEndian 4 w.toNat

@[simp] theorem toWord32_word32 (w : UInt32) : toWord32 (word32 w) = w := by
  have hlt : w.toNat < Nat.pow 256 4 := w.toNat_lt
  rw [toWord32, word32, ofBigEndian_bigEndian, Nat.mod_eq_of_lt hlt, UInt32.ofNat_toNat]

/-- Writing the number that bytes stand for, in as many digits, gives the bytes back. -/
theorem bigEndian_ofBigEndian {width : Nat} {bytes : Bytes} (h : bytes.length = width) :
    bigEndian width (ofBigEndian bytes) = bytes := by
  induction width generalizing bytes with
  | zero => rw [List.length_eq_zero_iff.1 h, bigEndian]
  | succ width ih =>
    obtain rfl | ⟨front, b, rfl⟩ := List.eq_nil_or_concat bytes
    · cases h
    have hfront : front.length = width := by simpa using h
    have hbyte := b.toNat_lt
    have hhigh : (ofBigEndian front * 256 + b.toNat) / 256 = ofBigEndian front := by omega
    have hlow : UInt8.ofNat (ofBigEndian front * 256 + b.toNat) = b := by
      refine UInt8.toNat_inj.1 ?_
      rw [UInt8.toNat_ofNat']
      omega
    rw [List.concat_eq_append, bigEndian, ofBigEndian_concat, hhigh, hlow, ih hfront]

theorem bigEndian_mod (width n : Nat) :
    bigEndian width (n % Nat.pow 256 width) = bigEndian width n := by
  rw [← ofBigEndian_bigEndian, bigEndian_ofBigEndian (length_bigEndian width n)]

theorem ofBigEndian_lt (bytes : Bytes) : ofBigEndian bytes < Nat.pow 256 bytes.length := by
  have hsame := ofBigEndian_bigEndian bytes.length (ofBigEndian bytes)
  rw [bigEndian_ofBigEndian rfl] at hsame
  rw [hsame]
  exact Nat.mod_lt _ (Nat.pow_pos (by decide))

theorem word32_toWord32 {bytes : Bytes} (h : bytes.length = 4) :
    word32 (toWord32 bytes) = bytes := by
  have hlt := ofBigEndian_lt bytes
  rw [h] at hlt
  rw [word32, toWord32, UInt32.toNat_ofNat_of_lt' hlt, bigEndian_ofBigEndian h]

theorem word16_toWord16 {bytes : Bytes} (h : bytes.length = 2) :
    word16 (toWord16 bytes) = bytes := by
  have hlt := ofBigEndian_lt bytes
  rw [h] at hlt
  rw [word16, toWord16, UInt16.toNat_ofNat_of_lt' hlt, bigEndian_ofBigEndian h]

theorem word64_toWord64 {bytes : Bytes} (h : bytes.length = 8) :
    word64 (toWord64 bytes) = bytes := by
  have hlt := ofBigEndian_lt bytes
  rw [h] at hlt
  rw [word64, toWord64, UInt64.toNat_ofNat_of_lt' hlt, bigEndian_ofBigEndian h]

namespace Read

variable {α β : Type}

theorem bind_apply (r : Read α) (f : α → Read β) (c : Cursor) :
    (r >>= f) c =
      match r c with
      | (some a, c') => f a c'
      | (none, c') => (none, c') := rfl

theorem bind_eq_none {r : Read α} (f : α → Read β) {c : Cursor} (h : (r c).1 = none) :
    ((r >>= f) c).1 = none := by
  rw [bind_apply]
  generalize r c = answer at h ⊢
  obtain ⟨_ | a, c'⟩ := answer
  · rfl
  · exact nomatch h

/-- A step that reads `width` bytes, and answers what `value` makes of them. Where fewer lie ahead
it answers nothing. -/
structure Reads (r : Read α) (width : Nat) (value : Bytes → α) : Prop where
  enough : ∀ c : Cursor, width ≤ c.rest.length →
    r c = (some (value (c.rest.take width)), ⟨c.position + width, c.rest.drop width⟩)
  short : ∀ c : Cursor, c.rest.length < width → (r c).1 = none

theorem Reads.exists_eq_none {r : Read α} {width : Nat} {value : Bytes → α}
    (hr : Reads r width value) {c : Cursor} (h : c.rest.length < width) :
    ∃ c', r c = (none, c') :=
  ⟨(r c).2, Prod.ext (hr.short c h) rfl⟩

theorem reads_bytes (n : Nat) : Reads (bytes n) n id where
  enough c h := by simp [bytes, Nat.min_eq_left h]
  short c h := by
    have hfew : (c.rest.take n).length ≠ n := by
      rw [List.length_take]
      omega
    rw [bytes, if_neg hfew]

theorem Reads.bind {r : Read α} {f : α → Read β} {width width' : Nat} {value : Bytes → α}
    {value' : α → Bytes → β} (hr : Reads r width value)
    (hf : ∀ a, Reads (f a) width' (value' a)) :
    Reads (r >>= f) (width + width') fun bs =>
      value' (value (bs.take width)) (bs.drop width) where
  enough c h := by
    rw [bind_apply, hr.enough c (by omega)]
    have hrest : width' ≤ (c.rest.drop width).length := by
      rw [List.length_drop]
      omega
    show f _ ⟨_, c.rest.drop width⟩ = _
    rw [(hf _).enough ⟨_, c.rest.drop width⟩ hrest]
    simp only [List.take_take, List.drop_take, List.drop_drop,
      Nat.min_eq_left (Nat.le_add_right width width'), Nat.add_sub_cancel_left, Nat.add_assoc]
  short c h := by
    by_cases hwidth : width ≤ c.rest.length
    · rw [bind_apply, hr.enough c hwidth]
      refine (hf _).short _ ?_
      rw [List.length_drop]
      omega
    · exact bind_eq_none f (hr.short c (by omega))

theorem Reads.map {r : Read α} {width : Nat} {value : Bytes → α} (hr : Reads r width value)
    (g : α → β) : Reads (r >>= fun a => pure (g a)) width fun bs => g (value bs) where
  enough c h := by
    rw [bind_apply, hr.enough c h]
    rfl
  short c h := bind_eq_none _ (hr.short c h)

/-- What is made of a step's bytes matters only for bytes of its width. -/
theorem Reads.congr {r : Read α} {width : Nat} {value value' : Bytes → α} (hr : Reads r width value)
    (hvalue : ∀ bs : Bytes, bs.length = width → value bs = value' bs) : Reads r width value' where
  enough c h := by rw [hr.enough c h, hvalue _ (List.length_take_of_le h)]
  short := hr.short

theorem Reads.append {r : Read α} {width : Nat} {value : Bytes → α} (hr : Reads r width value)
    {front : Bytes} (hfront : front.length = width) (position : Nat) (rest : Bytes) :
    r ⟨position, front ++ rest⟩ = (some (value front), ⟨position + width, rest⟩) := by
  subst hfront
  rw [hr.enough _ (by simp)]
  simp

theorem reads_byte : Reads byte 1 fun bs => UInt8.ofNat (ofBigEndian bs) :=
  (reads_bytes 1).map _

theorem reads_word16 : Reads word16 2 toWord16 :=
  (reads_bytes 2).map _

theorem reads_word32 : Reads word32 4 toWord32 :=
  (reads_bytes 4).map _

theorem reads_word64 : Reads word64 8 toWord64 :=
  (reads_bytes 8).map _

theorem reads_int32 : Reads int32 4 toInt32 :=
  (reads_bytes 4).map _

theorem reads_int24 : Reads int24 3 fun bs => signExtend24 (toWord32 bs) :=
  (reads_bytes 3).map _

theorem reads_text (width : Nat) :
    Reads (text width) width fun bs => Text.Utf8.decode (bs.takeWhile (· ≠ 0)) :=
  (reads_bytes width).map _

/-- A step that is repeated reads chunks of its width. -/
theorem reads_many {r : Read α} {width : Nat} {value : Bytes → α} (hr : Reads r width value)
    (count : Nat) :
    Reads (many r count) (count * width) fun bs => (chunks width count bs).map value := by
  induction count with
  | zero =>
    rw [Nat.zero_mul]
    exact ⟨fun c _ => rfl, fun c h => absurd h (Nat.not_lt_zero _)⟩
  | succ count ih =>
    have hwidth : (count + 1) * width = width + count * width := by
      rw [Nat.succ_mul, Nat.add_comm]
    rw [hwidth]
    exact hr.bind fun a => ih.map (a :: ·)

end Read

end SeisFeed.Wire
