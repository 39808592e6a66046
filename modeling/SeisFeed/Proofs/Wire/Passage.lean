import SeisFeed.Proofs.Wire.Undoing
/-!
# Reading one field after the other

A reader tries a list of shapes one after the other, and stays where it is at a field that does not
fit. `Shape.read_eq` says all there is to say of one try; the rest is told from it. What lies behind
a reader is made up of just the fields that it has read, each where the last one ended, and fields
that lose nothing when they are written are read back in order, with what follows them left over.
-/

namespace SeisFeed.Wire

variable {α β : Type} {data : Bytes} {c : Cursor}

/-! ### One field -/

namespace Read

/-- A step that fails leaves the cursor where it was. -/
def Stays (r : Read α) : Prop :=
  ∀ c, (r c).1 = none → (r c).2 = c

theorem stays_bytes (n : Nat) : Stays (bytes n) := by
  intro c h
  rw [bytes] at h ⊢
  split at h
  · cases h
  · next hfew => rw [if_neg hfew]

theorem Stays.map {r : Read α} (hr : Stays r) (g : α → β) : Stays (r >>= fun a => pure (g a)) := by
  intro c h
  rw [bind_apply] at h ⊢
  cases hread : r c with
  | mk answer c' =>
    rw [hread] at h
    cases answer with
    | none =>
      have hstays := hr c (by rw [hread])
      rwa [hread] at hstays
    | some a => cases h

end Read

namespace Shape

/-- The field of a shape that bytes stand for. -/
def value : Shape → Bytes → Field
  | .byte, bs => .byte (UInt8.ofNat (ofBigEndian bs))
  | .word16, bs => .word16 (toWord16 bs)
  | .word32, bs => .word32 (toWord32 bs)
  | .word64, bs => .word64 (toWord64 bs)
  | .int24, bs => .int24 (signExtend24 (toWord32 bs))
  | .int32, bs => .int32 (toInt32 bs)
  | .bytes _, bs => .bytes bs
  | .text width, bs => .text (Text.Utf8.decode (bs.takeWhile (· ≠ 0))) width

theorem reads_read (shape : Shape) : Read.Reads shape.read shape.width shape.value :=
  match shape with
  | .byte => Read.reads_byte.map Field.byte
  | .word16 => Read.reads_word16.map Field.word16
  | .word32 => Read.reads_word32.map Field.word32
  | .word64 => Read.reads_word64.map Field.word64
  | .int24 => Read.reads_int24.map Field.int24
  | .int32 => Read.reads_int32.map Field.int32
  | .bytes length => (Read.reads_bytes length).map Field.bytes
  | .text width => (Read.reads_text width).map (Field.text · width)

theorem stays_read (shape : Shape) : Read.Stays shape.read :=
  match shape with
  | .byte => ((Read.stays_bytes 1).map _).map _
  | .word16 => ((Read.stays_bytes 2).map _).map _
  | .word32 => ((Read.stays_bytes 4).map _).map _
  | .word64 => ((Read.stays_bytes 8).map _).map _
  | .int24 => ((Read.stays_bytes 3).map _).map _
  | .int32 => ((Read.stays_bytes 4).map _).map _
  | .bytes length => (Read.stays_bytes length).map _
  | .text width => ((Read.stays_bytes width).map _).map _

theorem read_eq (shape : Shape) (c : Cursor) :
    shape.read c =
      if shape.width ≤ c.remaining then
        (some (shape.value (c.rest.take shape.width)),
          ⟨c.position + shape.width, c.rest.drop shape.width⟩)
      else (none, c) := by
  split
  · next henough => exact shape.reads_read.enough c henough
  · next hfew =>
    have hnone := shape.reads_read.short c (Nat.lt_of_not_le hfew)
    exact Prod.ext hnone (shape.stays_read c hnone)

theorem isSome_read (shape : Shape) (c : Cursor) :
    (shape.read c).1.isSome = true ↔ shape.width ≤ c.remaining := by
  rw [read_eq]
  split
  · next h => exact iff_of_true rfl h
  · next h => exact iff_of_false Bool.false_ne_true h

end Shape

/-! ### Places in the data -/

/-- A reader of the data: what lies ahead of it is what follows its place. -/
structure Cursor.Along (data : Bytes) (c : Cursor) : Prop where
  rest : c.rest = data.drop c.position
  le : c.position ≤ data.length

theorem Cursor.along_start (data : Bytes) : (start data).Along data :=
  ⟨rfl, Nat.zero_le _⟩

theorem Cursor.Along.position_add_remaining (h : c.Along data) :
    c.position + c.remaining = data.length := by
  have hle := h.le
  rw [remaining, h.rest, List.length_drop]
  omega

theorem Cursor.Along.read (h : c.Along data) (shape : Shape) : (shape.read c).2.Along data := by
  have htotal := h.position_add_remaining
  rw [Shape.read_eq]
  split
  · refine ⟨?_, ?_⟩
    · rw [h.rest, List.drop_drop]
    · show c.position + shape.width ≤ data.length
      omega
  · exact h

/-- The bytes between two places. -/
def between (data : Bytes) (range : Nat × Nat) : Bytes :=
  (data.take range.2).drop range.1

/-- Ranges in a row from one place to another: each begins where the last one ended. -/
inductive InRow : Nat → List (Nat × Nat) → Nat → Prop
  | nil {place : Nat} : InRow place [] place
  | cons {first middle last : Nat} {ranges : List (Nat × Nat)} (hle : first ≤ middle)
      (hrest : InRow middle ranges last) : InRow first ((first, middle) :: ranges) last

theorem InRow.le {first last : Nat} {ranges : List (Nat × Nat)} (h : InRow first ranges last) :
    first ≤ last := by
  induction h with
  | nil => exact Nat.le_refl _
  | cons hle _ ih => exact Nat.le_trans hle ih

/-- Ranges in a row make up the bytes from the first place to the last. -/
theorem InRow.flatMap_between {first last : Nat} {ranges : List (Nat × Nat)}
    (h : InRow first ranges last) (hlast : last ≤ data.length) :
    ranges.flatMap (between data) = between data (first, last) := by
  induction h with
  | nil => simp [between]
  | @cons first middle last ranges hle hrest ih =>
    have hfront : data.take middle = (data.take last).take middle := by
      rw [List.take_take, Nat.min_eq_left hrest.le]
    have hfits : first ≤ ((data.take last).take middle).length := by
      simp only [List.length_take]
      have := hrest.le
      omega
    rw [List.flatMap_cons, ih hlast]
    simp only [between]
    rw [hfront, ← List.drop_append_of_le_length hfits, List.take_append_drop]

namespace Shape

/-- The ranges that are passed by the tries that succeed: where the reader stood before, and where
it stood afterwards. -/
def passed : List Shape → Cursor → List (Nat × Nat)
  | [], _ => []
  | shape :: shapes, c =>
    match shape.read c with
    | (some _, c') => (c.position, c'.position) :: passed shapes c'
    | (none, c') => passed shapes c'

theorem readEach_cons (shape : Shape) (shapes : List Shape) (c : Cursor) :
    readEach (shape :: shapes) c =
      ((shape.read c).1 :: (readEach shapes (shape.read c).2).1,
        (readEach shapes (shape.read c).2).2) :=
  rfl

theorem along_readEach (h : c.Along data) (shapes : List Shape) :
    (readEach shapes c).2.Along data := by
  induction shapes generalizing c with
  | nil => exact h
  | cons shape shapes ih => exact ih (h.read shape)

/-- A reader comes from place to place by what it reads, and by nothing else. -/
theorem inRow_passed (shapes : List Shape) (c : Cursor) :
    InRow c.position (passed shapes c) (readEach shapes c).2.position := by
  induction shapes generalizing c with
  | nil => exact .nil
  | cons shape shapes ih =>
    rw [passed, readEach_cons, read_eq]
    by_cases h : shape.width ≤ c.remaining
    · rw [if_pos h]
      exact .cons (Nat.le_add_right _ _) (ih _)
    · rw [if_neg h]
      exact ih c

end Shape

/-! ### Fields that were written -/

namespace Field

/-- A field of which nothing is lost when it is written. -/
def Whole : Field → Prop
  | .int24 i => signExtend24 i.toUInt32 = i
  | .text s width => FitsField width s
  | _ => True

theorem Whole.undoes {f : Field} (h : f.Whole) : Read.Undoes f.shape.read f.encode f :=
  match f, h with
  | .byte b, _ => (Read.undoes_byte b).map Field.byte
  | .word16 w, _ => (Read.undoes_word16 w).map Field.word16
  | .word32 w, _ => (Read.undoes_word32 w).map Field.word32
  | .word64 w, _ => (Read.undoes_word64 w).map Field.word64
  | .int24 i, h => by
    have hread := (Read.undoes_int24 i).map Field.int24
    rwa [show signExtend24 i.toUInt32 = i from h] at hread
  | .int32 i, _ => (Read.undoes_int32 i).map Field.int32
  | .bytes b, _ => ((Read.reads_bytes b.length).undoes rfl).map Field.bytes
  | .text _ width, h => (Read.undoes_text h).map (Field.text · width)

theorem readEach_encodeAll {fields : List Field} (h : ∀ f ∈ fields, f.Whole) (position : Nat)
    (tail : Bytes) :
    Shape.readEach (fields.map shape) ⟨position, encodeAll fields ++ tail⟩ =
      (fields.map some, ⟨position + (encodeAll fields).length, tail⟩) := by
  induction fields generalizing position with
  | nil => rfl
  | cons f fields ih =>
    have hread := (h f List.mem_cons_self).undoes.whole position (encodeAll fields ++ tail)
    have hrest := ih (fun g hg => h g (List.mem_cons_of_mem f hg)) (position + f.encode.length)
    have hall : encodeAll (f :: fields) = f.encode ++ encodeAll fields := List.flatMap_cons
    rw [List.map_cons, Shape.readEach_cons, hall, List.append_assoc, hread, hrest,
      List.length_append, Nat.add_assoc]
    rfl

end Field

/-- **Reading undoes writing, and a try that fails moves nothing.** Fields of which nothing is lost
are read back in order, whatever follows them, and just that is left. Whatever is tried on whatever
data, the place of the reader and what remains add up to the data; the next try succeeds if and only
if its width remains, however far its end would lie, and leaves the reader where it is otherwise;
and the ranges that were read follow one another from the beginning and make up all that lies behind
the reader. -/
theorem fields_read_in_order :
    (∀ (fields : List Field) (tail : Bytes), (∀ f ∈ fields, f.Whole) →
      ∃ c, Shape.readEach (fields.map Field.shape)
          (Cursor.start (Field.encodeAll fields ++ tail)) = (fields.map some, c) ∧
        c.position = (Field.encodeAll fields).length ∧ c.rest = tail) ∧
    ∀ (data : Bytes) (shapes : List Shape),
      let c := (Shape.readEach shapes (Cursor.start data)).2
      let ranges := Shape.passed shapes (Cursor.start data)
      (c.position + c.remaining = data.length ∧ c.rest = data.drop c.position) ∧
      (∀ shape : Shape, ((shape.read c).1.isSome = true ↔ shape.width ≤ c.remaining) ∧
        ((shape.read c).1 = none → (shape.read c).2 = c)) ∧
      InRow 0 ranges c.position ∧ ranges.flatMap (between data) = data.take c.position := by
  refine ⟨fun fields tail h => ?_, fun data shapes => ?_⟩
  · exact ⟨_, Field.readEach_encodeAll h 0 tail, Nat.zero_add _, rfl⟩
  · have hplace := Shape.along_readEach (Cursor.along_start data) shapes
    have hrow := Shape.inRow_passed shapes (Cursor.start data)
    refine ⟨⟨hplace.position_add_remaining, hplace.rest⟩, fun shape => ?_, hrow, ?_⟩
    · exact ⟨shape.isSome_read _, shape.stays_read _⟩
    · exact hrow.flatMap_between hplace.le

/-- A text that is padded, and then a try that fails between two that succeed, and one that would
end beyond all offsets of 64 bits. -/
theorem fields_read_in_order_past_failure :
    let fields : List Field := [.word32 7, .text "né" 5, .int32 (-2), .bytes [1, 2]]
    let shapes : List Shape := [.word16, .word32, .byte]
    let c : Cursor := ⟨3, [4]⟩
    (∀ f ∈ fields, f.Whole) ∧
      Shape.readEach [.word32, .text 5, .int32, .bytes 2]
        (Cursor.start (Field.encodeAll fields ++ [9])) = (fields.map some, ⟨15, [9]⟩) ∧
      Shape.readEach shapes (Cursor.start [1, 2, 3, 4]) =
        ([some (.word16 258), none, some (.byte 3)], c) ∧
      Shape.passed shapes (Cursor.start [1, 2, 3, 4]) = [(0, 2), (2, 3)] ∧
      (Shape.bytes 18446744073709551615).read c = (none, c) := by
  intro fields shapes c
  obtain ⟨hwritten, htried⟩ := fields_read_in_order
  have htext : FitsField 5 "né" := ⟨by decide, by decide⟩
  have hwhole : ∀ f ∈ fields, f.Whole := by
    simpa [fields, Field.Whole] using htext
  obtain ⟨⟨position, rest⟩, hread, hposition, hrest⟩ := hwritten fields [9] hwhole
  obtain rfl : position = 15 := hposition
  obtain rfl : rest = [9] := hrest
  obtain ⟨-, hnext, -⟩ := htried [1, 2, 3, 4] shapes
  have htoo := hnext (.bytes 18446744073709551615)
  have hnone : ((Shape.bytes 18446744073709551615).read c).1 = none :=
    Option.not_isSome_iff_eq_none.1 fun h => absurd (htoo.1.1 h) (by decide)
  exact ⟨hwhole, hread, by decide, by decide, Prod.ext hnone (htoo.2 hnone)⟩

end SeisFeed.Wire
