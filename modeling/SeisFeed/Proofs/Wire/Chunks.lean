import Mathlib.Data.Nat.ModEq
import SeisFeed.Wire.Word
/-!
# Chunks

Bytes that entries of one width were written to fall apart into these entries again, and bytes that
are cut into chunks are made of them, if they are cut into whole ones.
-/

namespace SeisFeed.Wire

theorem chunks_append {width count count' : Nat} {front back : Bytes}
    (hfront : front.length = count * width) :
    chunks width (count + count') (front ++ back) =
      chunks width count front ++ chunks width count' back := by
  induction count generalizing front with
  | zero =>
    rw [Nat.zero_mul, List.length_eq_zero_iff] at hfront
    rw [hfront, Nat.zero_add]
    rfl
  | succ count ih =>
    rw [Nat.succ_mul] at hfront
    rw [Nat.succ_add, chunks, chunks, List.take_append_of_le_length (by omega),
      List.drop_append_of_le_length (by omega), ih (by rw [List.length_drop]; omega)]
    rfl

theorem wholeChunks_append {width : Nat} {front : Bytes}
    (hfront : front.length % width = 0) (back : Bytes) :
    wholeChunks width (front ++ back) =
      wholeChunks width front ++ wholeChunks width back := by
  have hdvd := Nat.dvd_of_mod_eq_zero hfront
  rw [wholeChunks, List.length_append, Nat.add_div_of_dvd_right hdvd,
    chunks_append (Nat.div_mul_cancel hdvd).symm]
  rfl

theorem wholeChunks_of_short {width : Nat} {bytes : Bytes} (h : bytes.length < width) :
    wholeChunks width bytes = [] := by
  rw [wholeChunks, Nat.div_eq_of_lt h]
  rfl

theorem wholeChunks_take {width : Nat} (hpos : 0 < width) (bytes : Bytes) :
    wholeChunks width (bytes.take (width * (bytes.length / width))) = wholeChunks width bytes := by
  have hle := Nat.mul_div_le bytes.length width
  have hmod := Nat.mod_lt bytes.length hpos
  have hparts := Nat.div_add_mod bytes.length width
  have hfront : (bytes.take (width * (bytes.length / width))).length % width = 0 := by
    rw [List.length_take, Nat.min_eq_left hle, Nat.mul_mod_right]
  have hback : (bytes.drop (width * (bytes.length / width))).length < width := by
    rw [List.length_drop]
    omega
  have hsplit := wholeChunks_append hfront (bytes.drop (width * (bytes.length / width)))
  rw [List.take_append_drop, wholeChunks_of_short hback, List.append_nil] at hsplit
  exact hsplit.symm

/-- Entries of one width make a list of their number times the width. -/
theorem length_flatMap_of_width {α : Type} {write : α → Bytes} {width : Nat} {as : List α}
    (h : ∀ a ∈ as, (write a).length = width) : (as.flatMap write).length = as.length * width := by
  induction as with
  | nil => rw [List.flatMap_nil, List.length_nil, List.length_nil, Nat.zero_mul]
  | cons a as ih =>
    have hrest := ih fun b hb => h b (List.mem_cons_of_mem a hb)
    rw [List.flatMap_cons, List.length_append, h a List.mem_cons_self, hrest, List.length_cons,
      Nat.succ_mul, Nat.add_comm]

/-- Entries of one width are the chunks of that width of the list that they make. -/
theorem wholeChunks_flatMap {α : Type} {write : α → Bytes} {width : Nat} {as : List α}
    (hpos : 0 < width) (h : ∀ a ∈ as, (write a).length = width) :
    wholeChunks width (as.flatMap write) = as.map write := by
  rw [wholeChunks, length_flatMap_of_width h, Nat.mul_div_cancel _ hpos]
  induction as with
  | nil => rfl
  | cons a as ih =>
    have hfirst := h a List.mem_cons_self
    rw [List.length_cons, chunks, List.flatMap_cons, List.take_left' hfirst, List.drop_left' hfirst,
      List.map_cons, ih fun b hb => h b (List.mem_cons_of_mem a hb)]

theorem flatMap_chunks {write : Bytes → Bytes} {width count : Nat} {data : Bytes}
    (hlength : data.length = count * width)
    (h : ∀ chunk : Bytes, chunk.length = width → write chunk = chunk) :
    (chunks width count data).flatMap write = data := by
  induction count generalizing data with
  | zero =>
    rw [Nat.zero_mul, List.length_eq_zero_iff] at hlength
    rw [hlength]
    rfl
  | succ count ih =>
    rw [Nat.succ_mul] at hlength
    rw [chunks, List.flatMap_cons, h _ (by rw [List.length_take]; omega),
      ih (by rw [List.length_drop]; omega), List.take_append_drop]

/-- A list is made again of its chunks, if there is nothing behind the last whole one. -/
theorem flatMap_wholeChunks {write : Bytes → Bytes} {width count : Nat} {data : Bytes}
    (hpos : 0 < width) (hlength : data.length = count * width)
    (h : ∀ chunk : Bytes, chunk.length = width → write chunk = chunk) :
    (wholeChunks width data).flatMap write = data := by
  rw [wholeChunks, hlength, Nat.mul_div_cancel _ hpos]
  exact flatMap_chunks hlength h

end SeisFeed.Wire
