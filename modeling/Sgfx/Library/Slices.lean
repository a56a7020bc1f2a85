import Mathlib.Algebra.Group.Nat.Defs
import Mathlib.Data.List.Basic
import Mathlib.Tactic.Common

/-!
# Slices of an array

A slice `items[start..stop]` is cut anywhere between its ends, and its complete chunks are
those of its parts when the cut is between two chunks.

## Main Definitions

* `slice` — `items[start..stop]`
* `chunksExact`, `chunksOf` — the complete chunks, and all chunks

## Main Results

* `slice_append`
* `chunksExact_append`, `chunksOf_cons`
-/

namespace Sgfx

variable {α : Type} {items more : List α} {start middle stop : Nat}

/-! ### Slices -/

/-- `items[start..stop]`, up to the end of the array. -/
def slice (items : List α) (start stop : Nat) : List α := (items.drop start).take (stop - start)

@[simp] theorem slice_length :
    (slice items start stop).length = min (stop - start) (items.length - start) := by
  rw [slice, List.length_take, List.length_drop]

/-- Two slices that meet. -/
theorem slice_append (hstart : start ≤ middle) (hstop : middle ≤ stop) :
    slice items start middle ++ slice items middle stop = slice items start stop := by
  obtain ⟨first, rfl⟩ := Nat.exists_eq_add_of_le hstart
  obtain ⟨second, rfl⟩ := Nat.exists_eq_add_of_le hstop
  unfold slice
  rw [Nat.add_sub_cancel_left, Nat.add_sub_cancel_left, Nat.add_assoc, Nat.add_sub_cancel_left,
    ← List.drop_drop, List.take_add]

/-! ### Chunks -/

/-- The complete chunks, without the remainder. -/
def chunksExact (width : Nat) (items : List α) : List (List α) :=
  (List.range (items.length / width)).map fun i => (items.drop (i * width)).take width

variable {width : Nat}

theorem chunksExact_short (h : items.length < width) : chunksExact width items = [] := by
  rw [chunksExact, Nat.div_eq_of_lt h, List.range_zero, List.map_nil]

/-- Cut between two chunks, the chunks are those of the parts. -/
theorem chunksExact_append (hpos : 0 < width) (hdvd : width ∣ items.length) :
    chunksExact width (items ++ more) = chunksExact width items ++ chunksExact width more := by
  obtain ⟨count, hcount⟩ := hdvd
  have hfirst : items.length / width = count := by
    rw [hcount, Nat.mul_div_cancel_left _ hpos]
  have hall : (items ++ more).length / width = count + more.length / width := by
    rw [List.length_append, hcount, Nat.mul_add_div hpos]
  rw [chunksExact, hall, List.range_add, List.map_append, List.map_map]
  congr 1
  · rw [chunksExact, hfirst]
    refine List.map_congr_left fun i hi => ?_
    have hlt := List.mem_range.mp hi
    have hroom : i * width + width ≤ items.length := by
      rw [hcount, Nat.mul_comm width, ← Nat.succ_mul]
      exact Nat.mul_le_mul_right _ hlt
    rw [List.drop_append_of_le_length (by omega), List.take_append_of_le_length]
    rw [List.length_drop]
    omega
  · rw [chunksExact]
    refine List.map_congr_left fun i _ => ?_
    have hskip : (count + i) * width = items.length + i * width := by
      rw [Nat.add_mul, hcount, Nat.mul_comm width]
    show ((items ++ more).drop ((count + i) * width)).take width = _
    rw [hskip, List.drop_append]
    congr 1
    rw [List.drop_eq_nil_of_le (Nat.le_add_right ..), List.nil_append, Nat.add_sub_cancel_left]

/-- All chunks, the last of which may be short. -/
def chunksOf (width : Nat) (items : List α) : List (List α) :=
  (List.range ((items.length + width - 1) / width)).map fun i => (items.drop (i * width)).take width

@[simp] theorem chunksOf_nil (hpos : 0 < width) : chunksOf width ([] : List α) = [] := by
  have hzero : ([] : List α).length + width - 1 < width := by
    rw [List.length_nil]
    omega
  rw [chunksOf, Nat.div_eq_of_lt hzero, List.range_zero, List.map_nil]

/-- The first chunk and the others. -/
theorem chunksOf_cons (hpos : 0 < width) (h : items ≠ []) :
    chunksOf width items = items.take width :: chunksOf width (items.drop width) := by
  have hlength := List.length_pos_iff.mpr h
  have hcount : (items.length + width - 1) / width = ((items.drop width).length + width - 1) / width + 1 := by
    rw [List.length_drop]
    rcases Nat.lt_or_ge items.length width with hlt | hge
    · have hnone : (items.length - width + width - 1) / width = 0 :=
        Nat.div_eq_of_lt (by omega)
      have hone : items.length + width - 1 = items.length - 1 + width := by omega
      rw [hnone, hone, Nat.add_div_right _ hpos, Nat.div_eq_of_lt (by omega)]
    · have hsub : items.length + width - 1 = items.length - width + width - 1 + width := by omega
      rw [hsub, Nat.add_div_right _ hpos]
  rw [chunksOf, hcount, List.range_succ_eq_map, List.map_cons, List.map_map, Nat.zero_mul,
    List.drop_zero, chunksOf]
  congr 1
  refine List.map_congr_left fun i _ => ?_
  show (items.drop ((i + 1) * width)).take width = ((items.drop width).drop (i * width)).take width
  rw [List.drop_drop, Nat.add_mul, Nat.one_mul, Nat.add_comm]

/-! ### Rows -/

/-- Rows of one width, put one behind the other. -/
theorem flatMap_range_length {f : Nat → List α} {count : Nat}
    (hlength : ∀ i < count, (f i).length = width) :
    ((List.range count).flatMap f).length = count * width := by
  induction count with
  | zero => rw [List.range_zero, List.flatMap_nil, List.length_nil, Nat.zero_mul]
  | succ n ih =>
    rw [List.range_succ, List.flatMap_append, List.length_append,
      ih fun i hi => hlength i (Nat.lt_succ_of_lt hi), List.flatMap_singleton,
      hlength n (Nat.lt_succ_self n), Nat.succ_mul]

/-- A window of one of the rows. -/
theorem flatMap_range_window {f : Nat → List α} {count k offset length : Nat}
    (hlength : ∀ i < count, (f i).length = width) (hk : k < count)
    (hwindow : offset + length ≤ width) :
    (((List.range count).flatMap f).drop (k * width + offset)).take length =
      ((f k).drop offset).take length := by
  have hbefore : ((List.range k).flatMap f).length = k * width :=
    flatMap_range_length fun i hi => hlength i (Nat.lt_trans hi hk)
  have hrow : (f k).length = width := hlength k hk
  -- The rows before the one that is looked at, that row, and the others.
  obtain ⟨rest, rfl⟩ := Nat.exists_eq_add_of_le hk
  rw [List.range_add, List.flatMap_append, List.range_succ, List.flatMap_append,
    List.flatMap_singleton, List.append_assoc, List.drop_append, hbefore, Nat.add_sub_cancel_left,
    List.drop_eq_nil_of_le (hbefore ▸ Nat.le_add_right ..), List.nil_append,
    List.drop_append_of_le_length (by omega), List.take_append_of_le_length]
  rw [List.length_drop, hrow]
  omega

/-- An element of one of the rows. -/
theorem flatMap_range_getElem? {f : Nat → List α} {count k i : Nat}
    (hlength : ∀ i < count, (f i).length = width) (hk : k < count) (hi : i < width) :
    ((List.range count).flatMap f)[k * width + i]? = (f k)[i]? := by
  have inside : i + 1 ≤ width := hi
  have window := congrArg (·[0]?) (flatMap_range_window hlength hk inside)
  simpa using window

end Sgfx
