import Mathlib.Algebra.Group.Nat.Defs
import Mathlib.Tactic.Common
import Sgfx.Library.Bytes
import Sgfx.Library.Slices
import Sgfx.Pipelines

/-!
# Extrema of an index range

The indices of a byte range are its complete chunks, read little-endian.  Their least and
greatest value is found by a fold that can be cut anywhere between two indices, and bytes
after the last complete index do not count.

## Main Definitions

* `rawIndexBounds` — the extrema of the indices in some bytes
* `mergeIndexBounds` — the extrema of two ranges together

## Main Results

* `rawIndexBounds_append`, `rawIndexBounds_slice_split`
* `rawIndexBounds_trailing`
-/

namespace Sgfx.Indices

/-- The least and the greatest index of a range, if there is one. -/
abbrev IndexBounds := Option (Nat × Nat)

/-! ## Extrema -/

/-- One more index. -/
def extend (bounds : IndexBounds) (index : Nat) : IndexBounds :=
  match bounds with
  | none => some (index, index)
  | some (minimum, maximum) => some (min minimum index, max maximum index)

/-- `IndexFormat::byte_size`, as a length. -/
def width (format : IndexFormat) : Nat := format.byteSize.toNat

/-- `raw_index_bounds`. -/
def rawIndexBounds (bytes : List UInt8) (format : IndexFormat) : IndexBounds :=
  ((chunksExact (width format) bytes).map Bytes.fromLeBytes).foldl extend none

/-- `merge_index_bounds`. -/
def mergeIndexBounds : IndexBounds → IndexBounds → IndexBounds
  | some (aMin, aMax), some (bMin, bMax) => some (min aMin bMin, max aMax bMax)
  | a, none => a
  | none, b => b

theorem width_pos (format : IndexFormat) : 0 < width format := by
  cases format <;> exact Nat.zero_lt_succ _

@[simp] theorem merge_none (bounds : IndexBounds) : mergeIndexBounds bounds none = bounds := by
  cases bounds <;> rfl

@[simp] theorem none_merge (bounds : IndexBounds) : mergeIndexBounds none bounds = bounds := by
  cases bounds <;> rfl

/-- One more index extends the second part of a range. -/
theorem merge_extend (first second : IndexBounds) (index : Nat) :
    extend (mergeIndexBounds first second) index =
      mergeIndexBounds first (extend second index) := by
  match first, second with
  | none, none => rfl
  | none, some _ => rfl
  | some _, none => rfl
  | some (aMin, aMax), some (bMin, bMax) =>
    show some (min (min aMin bMin) index, max (max aMax bMax) index) =
      some (min aMin (min bMin index), max aMax (max bMax index))
    rw [Nat.min_assoc, Nat.max_assoc]

theorem foldl_extend (first second : IndexBounds) (indices : List Nat) :
    indices.foldl extend (mergeIndexBounds first second) =
      mergeIndexBounds first (indices.foldl extend second) := by
  induction indices generalizing second with
  | nil => rfl
  | cons index rest ih =>
    rw [List.foldl_cons, List.foldl_cons, merge_extend]
    exact ih _

/-- A range can be cut between two indices. -/
theorem rawIndexBounds_append {bytes rest : List UInt8} {format : IndexFormat}
    (hdvd : width format ∣ bytes.length) :
    rawIndexBounds (bytes ++ rest) format =
      mergeIndexBounds (rawIndexBounds bytes format) (rawIndexBounds rest format) := by
  unfold rawIndexBounds
  rw [chunksExact_append (width_pos format) hdvd, List.map_append, List.foldl_append]
  conv_lhs => rw [← merge_none (((chunksExact _ bytes).map _).foldl _ _)]
  exact foldl_extend _ none _

theorem rawIndexBounds_short {bytes : List UInt8} {format : IndexFormat}
    (h : bytes.length < width format) : rawIndexBounds bytes format = none := by
  rw [rawIndexBounds, chunksExact_short h]
  rfl

/-! ## Ranges of a buffer -/

variable {bytes : List UInt8} {start middle stop : Nat}

/-- The extrema of a range from those of its parts, the first of which is complete. -/
theorem rawIndexBounds_slice_split {format : IndexFormat} (hstart : start ≤ middle)
    (hstop : middle ≤ stop) (hdvd : width format ∣ middle - start)
    (hinside : middle ≤ max start bytes.length) :
    rawIndexBounds (slice bytes start stop) format =
      mergeIndexBounds (rawIndexBounds (slice bytes start middle) format)
        (rawIndexBounds (slice bytes middle stop) format) := by
  rw [← slice_append hstart hstop, rawIndexBounds_append]
  rw [slice_length]
  have hfull : min (middle - start) (bytes.length - start) = middle - start := by omega
  rwa [hfull]

/-- The bytes after the last complete index do not count. -/
theorem rawIndexBounds_trailing {format : IndexFormat} (hstart : start ≤ middle)
    (hstop : middle ≤ stop) (hdvd : width format ∣ middle - start)
    (hinside : middle ≤ max start bytes.length) (hrest : stop - middle < width format) :
    rawIndexBounds (slice bytes start stop) format =
      rawIndexBounds (slice bytes start middle) format := by
  have hshort : (slice bytes middle stop).length < width format := by
    rw [slice_length]
    omega
  rw [rawIndexBounds_slice_split hstart hstop hdvd hinside,
    rawIndexBounds_short hshort, merge_none]

end Sgfx.Indices
