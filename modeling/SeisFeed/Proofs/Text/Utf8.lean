import SeisFeed.Text.Utf8
/-!
# Encoded text is read back

The decoder takes one byte at a time, so a character is followed through its encoding byte by byte:
its first byte announces how many are to come and narrows the range of the next, and each of those
adds six bits. Every character comes out as it went in, whatever bytes follow it; and no byte of its
encoding is zero unless it is itself the zero character, so that text can be ended by a zero byte.
-/

namespace SeisFeed.Text.Utf8

/-! ### First bytes -/

theorem begin_one : ∀ n : Fin 0x80, begin (.ofNat n) = ([Char.ofNat n], none) := by
  decide

theorem begin_two : ∀ n : Fin 0x20, 2 ≤ n.val →
    begin (.ofNat (n + 0xC0)) = ([], some ⟨n, 0x80, 0xBF, 0⟩) := by
  decide

theorem begin_three : ∀ n : Fin 0x10, begin (.ofNat (n + 0xE0)) =
    ([], some ⟨n, if n.val = 0 then 0xA0 else 0x80, if n.val = 13 then 0x9F else 0xBF, 1⟩) := by
  decide

theorem begin_four : ∀ n : Fin 8, n.val < 5 → begin (.ofNat (n + 0xF0)) =
    ([], some ⟨n, if n.val = 0 then 0x90 else 0x80, if n.val = 4 then 0x8F else 0xBF, 2⟩) := by
  decide

/-! ### Bytes that continue a character -/

variable {code bits : Nat} {low high : UInt8}

theorem toNat_continuation (hbits : bits < 0x40) :
    (UInt8.ofNat (bits + 0x80)).toNat = bits + 0x80 := by
  rw [UInt8.toNat_ofNat']
  omega

/-- A byte in the range that is waited for adds its six bits. -/
theorem step_continuation (hbits : bits < 0x40) (hlow : low.toNat ≤ bits + 0x80)
    (hhigh : bits + 0x80 ≤ high.toNat) (after : Nat) :
    step (some ⟨code, low, high, after⟩) (.ofNat (bits + 0x80)) =
      match after with
      | 0 => ([Char.ofNat (code * 0x40 + bits)], none)
      | after + 1 => ([], some ⟨code * 0x40 + bits, 0x80, 0xBF, after⟩) := by
  have hbyte := toNat_continuation hbits
  have hrange : low ≤ .ofNat (bits + 0x80) ∧ .ofNat (bits + 0x80) ≤ high := by
    rw [UInt8.le_iff_toNat_le, UInt8.le_iff_toNat_le, hbyte]
    exact ⟨hlow, hhigh⟩
  have hsix : (UInt8.ofNat (bits + 0x80)).toNat % 0x40 = bits := by omega
  cases after <;> simp only [step, if_pos hrange, hsix]

theorem scan_last (hbits : bits < 0x40) (hlow : low.toNat ≤ bits + 0x80)
    (hhigh : bits + 0x80 ≤ high.toNat) (rest : List UInt8) :
    scan (some ⟨code, low, high, 0⟩) (.ofNat (bits + 0x80) :: rest) =
      Char.ofNat (code * 0x40 + bits) :: scan none rest := by
  rw [scan, step_continuation hbits hlow hhigh]
  rfl

theorem scan_more (hbits : bits < 0x40) (hlow : low.toNat ≤ bits + 0x80)
    (hhigh : bits + 0x80 ≤ high.toNat) (after : Nat) (rest : List UInt8) :
    scan (some ⟨code, low, high, after + 1⟩) (.ofNat (bits + 0x80) :: rest) =
      scan (some ⟨code * 0x40 + bits, 0x80, 0xBF, after⟩) rest := by
  rw [scan, step_continuation hbits hlow hhigh]
  rfl

/-! ### Characters -/

theorem scan_encodeChar (c : Char) (rest : List UInt8) :
    scan none (String.utf8EncodeChar c ++ rest) = c :: scan none rest := by
  have hvalid : c.val.toNat < 0xD800 ∨ 0xDFFF < c.val.toNat ∧ c.val.toNat < 0x110000 := c.valid
  have hchar : Char.ofNat c.val.toNat = c := Char.ofNat_toNat c
  -- The ranges of second bytes leave out overlong forms and surrogates, and `c` is none of these.
  fun_cases String.utf8EncodeChar c with
  | case1 v h1 =>
    have hfirst := begin_one ⟨v, by omega⟩
    rw [List.cons_append, scan, step, hfirst, hchar]
    rfl
  | case2 v h1 h2 =>
    have hfirst := begin_two ⟨v / 64 % 0x20, by omega⟩ (by show 2 ≤ v / 64 % 0x20; omega)
    have hcode : v / 64 % 0x20 * 0x40 + v % 0x40 = v := by omega
    rw [List.cons_append, scan, step, hfirst, List.nil_append, List.cons_append,
      scan_last (by omega) (by show 0x80 ≤ _; omega) (by show _ ≤ 0xBF; omega), hcode, hchar,
      List.nil_append]
  | case3 v h1 h2 h3 =>
    have hfirst := begin_three ⟨v / 4096 % 0x10, by omega⟩
    have hcode : (v / 4096 % 0x10 * 0x40 + v / 64 % 0x40) * 0x40 + v % 0x40 = v := by omega
    have hlow :
        (if v / 4096 % 0x10 = 0 then 0xA0 else 0x80 : UInt8).toNat ≤ v / 64 % 0x40 + 0x80 := by
      split
      · show 0xA0 ≤ _; omega
      · show 0x80 ≤ _; omega
    have hhigh :
        v / 64 % 0x40 + 0x80 ≤ (if v / 4096 % 0x10 = 13 then 0x9F else 0xBF : UInt8).toNat := by
      split
      · show _ ≤ 0x9F; omega
      · show _ ≤ 0xBF; omega
    rw [List.cons_append, scan, step, hfirst, List.nil_append, List.cons_append,
      scan_more (by omega) hlow hhigh, List.cons_append,
      scan_last (by omega) (by show 0x80 ≤ _; omega) (by show _ ≤ 0xBF; omega), hcode, hchar,
      List.nil_append]
  | case4 v h1 h2 h3 =>
    have hfirst := begin_four ⟨v / 262144 % 0x08, by omega⟩ (by show v / 262144 % 0x08 < 5; omega)
    have hcode : ((v / 262144 % 0x08 * 0x40 + v / 4096 % 0x40) * 0x40 + v / 64 % 0x40) * 0x40 +
        v % 0x40 = v := by omega
    have hlow : (if v / 262144 % 0x08 = 0 then 0x90 else 0x80 : UInt8).toNat ≤
        v / 4096 % 0x40 + 0x80 := by
      split
      · show 0x90 ≤ _; omega
      · show 0x80 ≤ _; omega
    have hhigh : v / 4096 % 0x40 + 0x80 ≤
        (if v / 262144 % 0x08 = 4 then 0x8F else 0xBF : UInt8).toNat := by
      split
      · show _ ≤ 0x8F; omega
      · show _ ≤ 0xBF; omega
    rw [List.cons_append, scan, step, hfirst, List.nil_append, List.cons_append,
      scan_more (by omega) hlow hhigh, List.cons_append,
      scan_more (by omega) (by show 0x80 ≤ _; omega) (by show _ ≤ 0xBF; omega), List.cons_append,
      scan_last (by omega) (by show 0x80 ≤ _; omega) (by show _ ≤ 0xBF; omega), hcode, hchar,
      List.nil_append]

theorem scan_flatMap_encodeChar (cs : List Char) :
    scan none (cs.flatMap String.utf8EncodeChar) = cs := by
  induction cs with
  | nil => rfl
  | cons c cs ih => rw [List.flatMap_cons, scan_encodeChar, ih]

theorem decode_encode (s : String) : decode (encode s) = s := by
  rw [decode, encode, scan_flatMap_encodeChar, String.ofList_toList]

/-! ### Zero bytes -/

theorem eq_of_zero_mem_encodeChar {c : Char} (h : 0 ∈ String.utf8EncodeChar c) : c = '\x00' := by
  have hbyte {n : Nat} (hzero : (0 : UInt8) = .ofNat n) : n % 0x100 = 0 := by
    rw [← UInt8.toNat_ofNat', ← hzero]
    rfl
  revert h
  fun_cases String.utf8EncodeChar c with
  | case1 v h1 =>
    intro h
    have hzero := hbyte (List.mem_singleton.1 h)
    have hval : c.val.toNat = 0 := by omega
    rw [← Char.ofNat_toNat c, Char.toNat, hval]
  | case2 v h1 h2 =>
    intro h
    simp only [List.mem_cons, List.not_mem_nil, or_false] at h
    rcases h with h | h <;> have hzero := hbyte h <;> omega
  | case3 v h1 h2 h3 =>
    intro h
    simp only [List.mem_cons, List.not_mem_nil, or_false] at h
    rcases h with h | h | h <;> have hzero := hbyte h <;> omega
  | case4 v h1 h2 h3 =>
    intro h
    simp only [List.mem_cons, List.not_mem_nil, or_false] at h
    rcases h with h | h | h | h <;> have hzero := hbyte h <;> omega

theorem zero_notMem_encode {s : String} (h : '\x00' ∉ s.toList) : 0 ∉ encode s := by
  intro hzero
  obtain ⟨c, hc, hbyte⟩ := List.mem_flatMap.1 hzero
  exact h (eq_of_zero_mem_encodeChar hbyte ▸ hc)

end SeisFeed.Text.Utf8
