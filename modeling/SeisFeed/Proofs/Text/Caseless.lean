import SeisFeed.Proofs.Text.Utf8
import SeisFeed.Text.Caseless
/-!
# Case in characters and in bytes

A character of one byte is that byte, and the bytes of every other are above all capitals. So the
bytes of a character are made small by making the character small, and characters can be compared
without regard to case by their bytes. The byte that a character begins with is never one that goes
on with a character.
-/

namespace SeisFeed.Text

namespace Utf8

variable {c d : Char}

/-- A byte that goes on with a character. -/
def Continues (b : UInt8) : Prop :=
  0x80 ≤ b.toNat ∧ b.toNat < 0xC0

theorem continues_of_bits {bits : Nat} (hbits : bits < 0x40) :
    Continues (.ofNat (bits + 0x80)) := by
  rw [Continues, toNat_continuation hbits]
  omega

/-- A character of several bytes begins with one above all those that go on with it. -/
theorem encodeChar_of_wide (h : c.utf8Size ≠ 1) : ∃ first rest,
    String.utf8EncodeChar c = first :: rest ∧ 0xC0 ≤ first.toNat ∧ ∀ b ∈ rest, Continues b := by
  have hlead {n : Nat} (h : 0xC0 ≤ n) (h' : n < 0x100) : 0xC0 ≤ (UInt8.ofNat n).toNat := by
    rw [UInt8.toNat_ofNat']
    omega
  fun_cases String.utf8EncodeChar c with
  | case1 v h1 =>
    exact absurd (Char.utf8Size_eq_one_iff.2 (UInt32.le_iff_toNat_le.2 h1)) h
  | case2 v h1 h2 =>
    exact ⟨_, _, rfl, hlead (by omega) (by omega), List.forall_mem_cons.2
      ⟨continues_of_bits (by omega), List.forall_mem_nil _⟩⟩
  | case3 v h1 h2 h3 =>
    exact ⟨_, _, rfl, hlead (by omega) (by omega), List.forall_mem_cons.2
      ⟨continues_of_bits (by omega), List.forall_mem_cons.2
        ⟨continues_of_bits (by omega), List.forall_mem_nil _⟩⟩⟩
  | case4 v h1 h2 h3 =>
    exact ⟨_, _, rfl, hlead (by omega) (by omega), List.forall_mem_cons.2
      ⟨continues_of_bits (by omega), List.forall_mem_cons.2
        ⟨continues_of_bits (by omega), List.forall_mem_cons.2
          ⟨continues_of_bits (by omega), List.forall_mem_nil _⟩⟩⟩⟩

theorem toNat_of_narrow (h : c.utf8Size = 1) : c.val.toUInt8.toNat = c.toNat ∧ c.toNat < 0x80 := by
  have hle : c.toNat ≤ 127 := UInt32.le_iff_toNat_le.1 (Char.utf8Size_eq_one_iff.1 h)
  refine ⟨?_, by omega⟩
  rw [UInt32.toNat_toUInt8]
  exact Nat.mod_eq_of_lt (by show c.toNat < _; omega)

/-- The first byte of a character goes on with none, and all others do. -/
theorem encodeChar_shape (c : Char) : ∃ first rest, String.utf8EncodeChar c = first :: rest ∧
    ¬ Continues first ∧ ∀ b ∈ rest, Continues b := by
  by_cases h : c.utf8Size = 1
  · obtain ⟨hbyte, hlt⟩ := toNat_of_narrow h
    exact ⟨_, [], String.utf8EncodeChar_eq_singleton h, fun hc => by have := hc.1; omega,
      List.forall_mem_nil _⟩
  · obtain ⟨first, rest, heq, hfirst, hrest⟩ := encodeChar_of_wide h
    exact ⟨first, rest, heq, fun hc => by have := hc.2; omega, hrest⟩

theorem le_of_mem_encodeChar (h : c.utf8Size ≠ 1) {b : UInt8}
    (hb : b ∈ String.utf8EncodeChar c) : 0x80 ≤ b.toNat := by
  obtain ⟨first, rest, heq, hfirst, hrest⟩ := encodeChar_of_wide h
  rw [heq] at hb
  rcases List.mem_cons.1 hb with rfl | hb
  · omega
  · exact (hrest b hb).1

end Utf8

/-! ### Small letters -/

theorem lowerByte_of_le {b : UInt8} (h : 0x80 ≤ b.toNat) : lowerByte b = b := by
  rw [lowerByte, if_neg]
  rintro ⟨-, hle⟩
  have : b.toNat ≤ 0x5A := UInt8.le_iff_toNat_le.1 hle
  omega

theorem lowerByte_lt {b : UInt8} (h : b.toNat < 0x80) : (lowerByte b).toNat < 0x80 := by
  rw [lowerByte]
  split
  · next hcapital =>
    have hle : b.toNat ≤ 0x5A := UInt8.le_iff_toNat_le.1 hcapital.2
    rw [UInt8.toNat_add]
    show (b.toNat + 32) % 256 < _
    omega
  · exact h

theorem continues_lowerByte {b : UInt8} (h : Utf8.Continues (lowerByte b)) : Utf8.Continues b := by
  by_cases hb : b.toNat < 0x80
  · exact absurd h.1 (Nat.not_le_of_lt (lowerByte_lt hb))
  · rwa [lowerByte_of_le (by omega)] at h

theorem toLower_of_wide {c : Char} (h : c.utf8Size ≠ 1) : c.toLower = c := by
  refine dif_neg ?_
  rintro ⟨-, hle⟩
  have hle : c.toNat ≤ 90 := UInt32.le_iff_toNat_le.1 hle
  exact h (Char.utf8Size_eq_one_iff.2 (UInt32.le_iff_toNat_le.2 (by show c.toNat ≤ 127; omega)))

theorem toLower_ofNat : ∀ n : Fin 0x80, (Char.ofNat n).toLower.utf8Size = 1 ∧
    (Char.ofNat n).toLower.val.toUInt8 = lowerByte (Char.ofNat n).val.toUInt8 := by
  decide

theorem toLower_of_narrow {c : Char} (h : c.utf8Size = 1) :
    c.toLower.utf8Size = 1 ∧ c.toLower.val.toUInt8 = lowerByte c.val.toUInt8 := by
  have hsmall := toLower_ofNat ⟨c.toNat, (Utf8.toNat_of_narrow h).2⟩
  rwa [Char.ofNat_toNat] at hsmall

theorem map_lowerByte_encodeChar (c : Char) :
    (String.utf8EncodeChar c).map lowerByte = String.utf8EncodeChar c.toLower := by
  by_cases h : c.utf8Size = 1
  · obtain ⟨hsize, hbyte⟩ := toLower_of_narrow h
    rw [String.utf8EncodeChar_eq_singleton h, String.utf8EncodeChar_eq_singleton hsize, hbyte]
    rfl
  · rw [toLower_of_wide h]
    have hsame : ∀ b ∈ String.utf8EncodeChar c, lowerByte b = id b :=
      fun b hb => lowerByte_of_le (Utf8.le_of_mem_encodeChar h hb)
    rw [List.map_congr_left hsame, List.map_id]

theorem utf8Size_toLower (c : Char) : c.toLower.utf8Size = c.utf8Size := by
  rw [← String.length_utf8EncodeChar, ← map_lowerByte_encodeChar, List.length_map,
    String.length_utf8EncodeChar]

/-- Where the small bytes of a text begin with those of a character, the text begins with that
character, in either case. -/
theorem toLower_eq_of_prefix {c d : Char} {rest rest' : List UInt8}
    (h : (String.utf8EncodeChar c).map lowerByte ++ rest =
      (String.utf8EncodeChar d).map lowerByte ++ rest') : c.toLower = d.toLower := by
  rw [map_lowerByte_encodeChar, map_lowerByte_encodeChar] at h
  have hscan := congrArg (Utf8.scan none) h
  rw [Utf8.scan_encodeChar, Utf8.scan_encodeChar] at hscan
  exact (List.cons.inj hscan).1

end SeisFeed.Text
