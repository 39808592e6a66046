import SeisFeed.Proofs.Text.Utf8
import SeisFeed.Proofs.Wire.Reading
/-!
# Reading what was written

`Undoes r bs a` says that a step reads `a` back from the bytes that it was written as: it takes just
these, whatever follows them, and where they are cut off it answers nothing. Steps in sequence undo
what was written one behind the other, and a step that is repeated undoes a list; so a body is read
back once each of its fields is, no strict prefix of it is read, and nothing behind it matters.
-/

namespace SeisFeed.Wire

/-! ### Words -/

@[simp] theorem toWord16_word16 (w : UInt16) : toWord16 (word16 w) = w := by
  have hlt : w.toNat < Nat.pow 256 2 := w.toNat_lt
  rw [toWord16, word16, ofBigEndian_bigEndian, Nat.mod_eq_of_lt hlt, UInt16.ofNat_toNat]

@[simp] theorem toWord64_word64 (w : UInt64) : toWord64 (word64 w) = w := by
  have hlt : w.toNat < Nat.pow 256 8 := w.toNat_lt
  rw [toWord64, word64, ofBigEndian_bigEndian, Nat.mod_eq_of_lt hlt, UInt64.ofNat_toNat]

@[simp] theorem length_int32 (i : Int32) : (int32 i).length = 4 :=
  length_word32 i.toUInt32

theorem int32_toInt32 {bytes : Bytes} (h : bytes.length = 4) : int32 (toInt32 bytes) = bytes := by
  rw [int32, toInt32, UInt32.toUInt32_toInt32, word32_toWord32 h]

@[simp] theorem toInt32_int32 (i : Int32) : toInt32 (int32 i) = i := by
  rw [toInt32, int32, toWord32_word32, Int32.toInt32_toUInt32]

theorem signExtend24_congr {v w : UInt32} (h : v.toNat % 0x1000000 = w.toNat % 0x1000000) :
    signExtend24 v = signExtend24 w := by
  have hcast : (v.toNat : Int) % (0x1000000 : Nat) = (w.toNat : Int) % (0x1000000 : Nat) := by
    exact_mod_cast h
  have hbmod : Int.bmod v.toNat 0x1000000 = Int.bmod w.toNat 0x1000000 := by
    rw [← Int.emod_bmod, hcast, Int.emod_bmod]
  exact congrArg Int32.ofInt hbmod

/-- Of a signed integer that is written in three bytes the low 24 bits are read back. -/
theorem signExtend24_int24 (i : Int32) :
    signExtend24 (toWord32 (int24 i)) = signExtend24 i.toUInt32 := by
  have hpow : Nat.pow 256 3 = 16777216 := rfl
  have hsmall : i.toUInt32.toNat % 16777216 < UInt32.size :=
    Nat.lt_trans (Nat.mod_lt _ (by decide)) (by decide)
  apply signExtend24_congr
  rw [toWord32, int24, ofBigEndian_bigEndian, hpow, UInt32.toNat_ofNat_of_lt' hsmall, Nat.mod_mod]

namespace Read

variable {α β : Type}

/-- The step reads the value back from the bytes, whatever follows them, and nothing from a strict
prefix of them. -/
structure Undoes (r : Read α) (bs : Bytes) (a : α) : Prop where
  whole : ∀ position rest,
    r ⟨position, bs ++ rest⟩ = (some a, ⟨position + bs.length, rest⟩)
  cut : ∀ position n, n < bs.length → (r ⟨position, bs.take n⟩).1 = none

theorem Reads.undoes {r : Read α} {width : Nat} {value : Bytes → α} (hr : Reads r width value)
    {bs : Bytes} (hbs : bs.length = width) : Undoes r bs (value bs) where
  whole position rest := by rw [hr.append hbs, hbs]
  cut position n hn := hr.short _ (by simp only [List.length_take]; omega)

theorem undoes_pure (a : α) : Undoes (pure a) [] a where
  whole _ _ := rfl
  cut _ _ hn := absurd hn (Nat.not_lt_zero _)

theorem Undoes.bind {r : Read α} {f : α → Read β} {bs cs : Bytes} {a : α} {b : β}
    (hr : Undoes r bs a) (hf : Undoes (f a) cs b) : Undoes (r >>= f) (bs ++ cs) b where
  whole position rest := by
    rw [bind_apply, List.append_assoc, hr.whole]
    show f a _ = _
    rw [hf.whole, List.length_append, Nat.add_assoc]
  cut position n hn := by
    rw [List.length_append] at hn
    by_cases hfirst : n < bs.length
    · rw [List.take_append_of_le_length (Nat.le_of_lt hfirst)]
      exact bind_eq_none f (hr.cut position n hfirst)
    · rw [List.take_append, List.take_of_length_le (by omega), bind_apply, hr.whole]
      exact hf.cut _ _ (by omega)

theorem Undoes.map {r : Read α} {bs : Bytes} {a : α} (hr : Undoes r bs a) (g : α → β) :
    Undoes (r >>= fun a => pure (g a)) bs (g a) := by
  have hmap := hr.bind (f := fun a => pure (g a)) (undoes_pure (g a))
  rwa [List.append_nil] at hmap

/-- A list is read back by as many steps as it has entries. -/
theorem undoes_many {r : Read β} {write : α → Bytes} {value : α → β} {as : List α}
    (h : ∀ a ∈ as, Undoes r (write a) (value a)) :
    Undoes (many r as.length) (as.flatMap write) (as.map value) := by
  induction as with
  | nil => exact undoes_pure []
  | cons a as ih =>
    have hrest := ih fun b hb => h b (List.mem_cons_of_mem a hb)
    exact (h a List.mem_cons_self).bind (hrest.map (value a :: ·))

namespace Undoes

variable {r : Read α} {bs : Bytes} {a : α}

theorem run_append (hr : Undoes r bs a) (rest : Bytes) : r.run (bs ++ rest) = some a := by
  rw [run, Cursor.start, hr.whole]

theorem run (hr : Undoes r bs a) : r.run bs = some a := by
  have hrun := hr.run_append []
  rwa [List.append_nil] at hrun

theorem run_take (hr : Undoes r bs a) {n : Nat} (hn : n < bs.length) : r.run (bs.take n) = none :=
  hr.cut 0 n hn

end Undoes

/-! ### Fields -/

theorem undoes_byte (b : UInt8) : Undoes byte [b] b := by
  have hbyte := reads_byte.undoes (show [b].length = 1 from rfl)
  simpa [ofBigEndian] using hbyte

theorem undoes_word16 (w : UInt16) : Undoes word16 (Wire.word16 w) w := by
  have hword := reads_word16.undoes (length_bigEndian 2 w.toNat)
  rwa [← Wire.word16, toWord16_word16] at hword

theorem undoes_word32 (w : UInt32) : Undoes word32 (Wire.word32 w) w := by
  have hword := reads_word32.undoes (length_word32 w)
  rwa [toWord32_word32] at hword

theorem undoes_word64 (w : UInt64) : Undoes word64 (Wire.word64 w) w := by
  have hword := reads_word64.undoes (length_bigEndian 8 w.toNat)
  rwa [← Wire.word64, toWord64_word64] at hword

theorem undoes_int32 (i : Int32) : Undoes int32 (Wire.int32 i) i := by
  have hint := reads_int32.undoes (length_word32 i.toUInt32)
  rwa [← Wire.int32, toInt32_int32] at hint

theorem undoes_int24 (i : Int32) : Undoes int24 (Wire.int24 i) (signExtend24 i.toUInt32) := by
  have hint := reads_int24.undoes (length_bigEndian 3 i.toUInt32.toNat)
  rwa [← Wire.int24, signExtend24_int24] at hint

end Read

/-! ### Text -/

/-- A text that a field of a width can hold: it has no zero character, which would end it. -/
def FitsField (width : Nat) (s : String) : Prop :=
  (Text.Utf8.encode s).length ≤ width ∧ '\x00' ∉ s.toList

theorem length_textField (s : String) (width : Nat) : (textField s width).length = width := by
  simp only [textField, List.length_append, List.length_take, List.length_replicate]
  omega

theorem takeWhile_encode {s : String} (h : '\x00' ∉ s.toList) (padding : Nat) :
    (Text.Utf8.encode s ++ List.replicate padding 0).takeWhile (· ≠ 0) = Text.Utf8.encode s := by
  have hbytes : ∀ b ∈ Text.Utf8.encode s, decide (b ≠ 0) = true := by
    intro b hb
    have hb0 : b ≠ 0 := fun hzero => Text.Utf8.zero_notMem_encode h (hzero ▸ hb)
    exact decide_eq_true hb0
  rw [List.takeWhile_append_of_pos hbytes]
  cases padding <;> simp [List.replicate_succ]

namespace Read

theorem undoes_text {width : Nat} {s : String} (h : FitsField width s) :
    Undoes (text width) (textField s width) s := by
  have hread := (reads_text width).undoes (length_textField s width)
  have hfield : textField s width = Text.Utf8.encode s ++
      List.replicate (width - (Text.Utf8.encode s).length) 0 := by
    rw [textField, List.take_of_length_le h.1]
  have hvalue : Text.Utf8.decode ((textField s width).takeWhile (· ≠ 0)) = s := by
    rw [hfield, takeWhile_encode h.2, Text.Utf8.decode_encode]
  rwa [hvalue] at hread

end Read

end SeisFeed.Wire
