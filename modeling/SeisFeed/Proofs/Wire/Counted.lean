import SeisFeed.Proofs.Wire.Chunks
import SeisFeed.Proofs.Wire.Undoing
/-!
# Counted lists

A list travels as the number of its entries and then the entries, each of the same width.
`parseCounted` compares the number with the bytes that are there before it reads the first entry.
After that check no read of an entry can fail, so it does not matter what a failed one would stand
for; a list is read back as it was written, no strict prefix of it is accepted, and what follows it
is ignored.
-/

namespace SeisFeed.Wire

variable {α β ε : Type}

def counted (write : α → Bytes) (as : List α) : Bytes :=
  word32 (UInt32.ofNat as.length) ++ as.flatMap write

/-- What a step reads, and a fallback where it reads nothing. -/
def Read.orElse (r : Read α) (fallback : α) : Read α := fun c =>
  match r c with
  | (some a, c) => (some a, c)
  | (none, c) => (some fallback, c)

/-- The entries of a counted list, read once there are known to be bytes for all of them. -/
def parseCounted (refuse : String → ε) (width : Nat) (r : Read α) (body : Bytes) :
    Except ε (List α) :=
  match Read.word32 (.start body) with
  | (none, _) => .error (refuse "missing count")
  | (some count, c) =>
    if c.remaining < count.toNat * width then
      .error (refuse
        s!"{count} entries need {count.toNat * width} bytes, body has {c.remaining}")
    else .ok ((Read.many r count.toNat c).1.getD [])

variable {refuse : String → ε} {width : Nat} {r : Read α} {value : Bytes → α}

namespace Read

/-- Two steps that do the same wherever there are bytes enough. -/
def Agrees (width : Nat) (r' r : Read α) : Prop :=
  ∀ c : Cursor, width ≤ c.rest.length → r' c = r c

theorem agrees_orElse (hr : Reads r width value) (fallback : α) :
    Agrees width (r.orElse fallback) r := by
  intro c h
  rw [orElse, hr.enough c h]

theorem Agrees.bind {r' : Read α} {f' f : α → Read β} {width' : Nat} (h : Agrees width r' r)
    (hr : Reads r width value) (hf : ∀ a, Agrees width' (f' a) (f a)) :
    Agrees (width + width') (r' >>= f') (r >>= f) := by
  intro c hc
  rw [bind_apply, bind_apply, h c (by omega), hr.enough c (by omega)]
  exact hf _ _ (by rw [List.length_drop]; omega)

theorem Agrees.map {r' : Read α} (h : Agrees width r' r) (g : α → β) :
    Agrees width (r' >>= fun a => pure (g a)) (r >>= fun a => pure (g a)) := by
  intro c hc
  rw [bind_apply, bind_apply, h c hc]

theorem Agrees.many {r' : Read α} (h : Agrees width r' r) (hr : Reads r width value)
    (count : Nat) : Agrees (count * width) (many r' count) (many r count) := by
  induction count with
  | zero => exact fun c _ => rfl
  | succ count ih =>
    rw [Nat.succ_mul, Nat.add_comm (count * width)]
    exact h.bind hr fun a => ih.map (a :: ·)

end Read

theorem parseCounted_of_short {body : Bytes} (h : body.length < 4) :
    parseCounted refuse width r body = .error (refuse "missing count") := by
  obtain ⟨c, hread⟩ := Read.reads_word32.exists_eq_none (c := .start body) h
  rw [parseCounted, hread]

/-- The number of entries that the body of a list announces. -/
def announced (body : Bytes) : UInt32 :=
  toWord32 (body.take 4)

theorem parseCounted_of_long {body : Bytes} {count : UInt32} (h : 4 ≤ body.length)
    (hcount : announced body = count) :
    parseCounted refuse width r body =
      if body.length - 4 < count.toNat * width then
        .error (refuse
          s!"{count} entries need {count.toNat * width} bytes, body has {body.length - 4}")
      else .ok ((Read.many r count.toNat ⟨4, body.drop 4⟩).1.getD []) := by
  subst hcount
  have hread : Read.word32 (.start body) = (some (announced body), ⟨4, body.drop 4⟩) :=
    Read.reads_word32.enough (.start body) h
  simp only [parseCounted, hread, Cursor.remaining, List.length_drop]

/-- A step that agrees wherever there are bytes enough for it makes no difference, whatever it does
elsewhere. -/
theorem parseCounted_congr (hr : Read.Reads r width value) {r' : Read α}
    (hagree : Read.Agrees width r' r) (body : Bytes) :
    parseCounted refuse width r' body = parseCounted refuse width r body := by
  by_cases h : 4 ≤ body.length
  · rw [parseCounted_of_long h rfl, parseCounted_of_long h rfl]
    split
    · rfl
    · next henough =>
      rw [hagree.many hr _ ⟨4, body.drop 4⟩ (by rw [List.length_drop]; omega)]
  · rw [parseCounted_of_short (by omega), parseCounted_of_short (by omega)]

/-- The check of the number says just whether the entries can be read. -/
theorem parseCounted_eq (hr : Read.Reads r width value) (body : Bytes) :
    parseCounted refuse width r body =
      match Read.word32 (.start body) with
      | (none, _) => .error (refuse "missing count")
      | (some count, c) =>
        match (Read.many r count.toNat c).1 with
        | none => .error (refuse
            s!"{count} entries need {count.toNat * width} bytes, body has {c.remaining}")
        | some entries => .ok entries := by
  rw [parseCounted]
  rcases Read.word32 (.start body) with ⟨_ | count, c⟩
  · rfl
  · have hmany := Read.reads_many hr count.toNat
    dsimp only
    split
    · next hshort => rw [hmany.short c hshort]
    · next henough => rw [hmany.enough c (Nat.not_lt.1 henough), Option.getD_some]

theorem parseCounted_append (hr : Read.Reads r width value) {body : Bytes} {as : List α}
    (h : parseCounted refuse width r body = .ok as) (extra : Bytes) :
    parseCounted refuse width r (body ++ extra) = .ok as := by
  by_cases hlong : 4 ≤ body.length
  · have hcount : announced (body ++ extra) = announced body := by
      rw [announced, List.take_append_of_le_length hlong, announced]
    have hlong' : 4 ≤ (body ++ extra).length := by
      rw [List.length_append]
      omega
    rw [parseCounted_of_long hlong rfl] at h
    rw [parseCounted_of_long hlong' hcount]
    split at h
    · cases h
    · next henough =>
      have hmany := Read.reads_many hr (announced body).toNat
      have hrest : (announced body).toNat * width ≤ (body.drop 4).length := by
        rw [List.length_drop]
        omega
      rw [if_neg (by rw [List.length_append]; omega), ← h, List.drop_append_of_le_length hlong,
        hmany.enough ⟨4, body.drop 4⟩ hrest, hmany.enough _ (by rw [List.length_append]; omega),
        List.take_append_of_le_length hrest]
  · rw [parseCounted_of_short (by omega)] at h
    cases h

/-! ### Lists as they are written -/

section Written

variable {write : β → Bytes} {kept : β → α} {bs : List β}

theorem length_counted (hwidth : ∀ b ∈ bs, (write b).length = width) :
    (counted write bs).length = 4 + bs.length * width := by
  rw [counted, List.length_append, length_word32, length_flatMap_of_width hwidth]

theorem toNat_announced_counted (hlength : bs.length < UInt32.size) :
    (announced (counted write bs)).toNat = bs.length := by
  have hword : (counted write bs).take 4 = word32 (UInt32.ofNat bs.length) :=
    List.take_left' (length_word32 _)
  rw [announced, hword, toWord32_word32, UInt32.toNat_ofNat_of_lt' hlength]

theorem parseCounted_counted (hlength : bs.length < UInt32.size)
    (hentries : ∀ b ∈ bs, r.Undoes (write b) (kept b))
    (hwidth : ∀ b ∈ bs, (write b).length = width) :
    parseCounted refuse width r (counted write bs) = .ok (bs.map kept) := by
  have hlong := length_counted hwidth
  have hrest : (counted write bs).drop 4 = bs.flatMap write := List.drop_left' (length_word32 _)
  have hread := (Read.undoes_many hentries).whole 4 []
  rw [List.append_nil] at hread
  rw [parseCounted_of_long (by omega) rfl, toNat_announced_counted hlength, if_neg (by omega),
    hrest, hread, Option.getD_some]

theorem parseCounted_take (hlength : bs.length < UInt32.size)
    (hwidth : ∀ b ∈ bs, (write b).length = width) {n : Nat} (hn : n < (counted write bs).length) :
    ∃ reason, parseCounted refuse width r ((counted write bs).take n) = .error (refuse reason) := by
  have hcut : ((counted write bs).take n).length = n := List.length_take_of_le (Nat.le_of_lt hn)
  by_cases h : 4 ≤ n
  · have hcount : announced ((counted write bs).take n) = announced (counted write bs) := by
      rw [announced, List.take_take, Nat.min_eq_left h, announced]
    rw [length_counted hwidth] at hn
    rw [parseCounted_of_long (by omega) hcount, toNat_announced_counted hlength, hcut,
      if_pos (by omega)]
    exact ⟨_, rfl⟩
  · rw [parseCounted_of_short (by omega)]
    exact ⟨_, rfl⟩

end Written

end SeisFeed.Wire
