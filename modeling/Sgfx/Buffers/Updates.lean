import Sgfx.Buffers.Ranges

/-!
# Sparse upload sources and revision deltas

A `BufferUpdate` says which bytes of a buffer changed since a revision that physical
storage is known to hold: an envelope, and optionally the aligned intervals inside it.
An empty interval list asks for a full repair, and stays empty.  A `BufferSource` is
what an upload reads: the accepted bytes, under the overlays of a pending plan.

Where the source clones or reserves an interval list, running out of memory gives the
empty list.

## Main Definitions

* `BufferUpdate`, with `sparse`, `includeRange`, `mergePrevious`
* `BufferSource`, with `copyRange`, `directRange`
-/

namespace Sgfx

open Ranges

/-! ## Intervals -/

/-- `BufferIntervals<N, ALIGN>`: at most `N` intervals, aligned to `ALIGN`. -/
structure BufferIntervals (N ALIGN : Nat) where
  ranges : List ByteRange

namespace BufferIntervals

variable {N ALIGN : Nat}

/-- `BufferIntervals::aligned`; `ALIGN` is a power of two. -/
def aligned (ALIGN : Nat) (range : ByteRange) : Option ByteRange :=
  if range.start < range.stop then
    (checkedAddUsize range.stop (ALIGN - 1)).map fun stop =>
      ⟨range.start / ALIGN * ALIGN, stop / ALIGN * ALIGN⟩
  else none

/-- `BufferIntervals::new`. -/
def new (memory : Bool) (range : ByteRange) : BufferIntervals N ALIGN :=
  ⟨if memory then (aligned ALIGN range).toList else []⟩

/-- `Clone`. -/
def clone (memory : Bool) (intervals : BufferIntervals N ALIGN) : BufferIntervals N ALIGN :=
  ⟨if intervals.ranges.isEmpty = false ∧ memory = true then intervals.ranges else []⟩

/-- `BufferIntervals::include`. -/
def includeRange (intervals : BufferIntervals N ALIGN) (range : ByteRange) :
    BufferIntervals N ALIGN :=
  if intervals.ranges.isEmpty then intervals
  else
    match aligned ALIGN range with
    | none => ⟨[]⟩
    | some range =>
        let first := partitionPoint (fun old => decide (old.stop < range.start)) intervals.ranges
        let last := first + partitionPoint (fun old => decide (old.start ≤ range.stop))
          (intervals.ranges.drop first)
        if first < last then
          let start := min range.start ((intervals.ranges[first]?).elim range.start ByteRange.start)
          let stop := max range.stop ((intervals.ranges[last - 1]?).elim range.stop ByteRange.stop)
          ⟨intervals.ranges.take first ++ ⟨start, stop⟩ :: intervals.ranges.drop last⟩
        else if intervals.ranges.length = N then ⟨[]⟩
        else ⟨intervals.ranges.take first ++ range :: intervals.ranges.drop first⟩

end BufferIntervals

/-! ## Updates -/

/-- `BufferUpdate<N, ALIGN>`. -/
structure BufferUpdate (N ALIGN : Nat) where
  previousRevision : UInt64
  range : ByteRange
  intervals : Option (BufferIntervals N ALIGN)

/-- The smallest range that has both. -/
def ByteRange.join (a b : ByteRange) : ByteRange := ⟨min a.start b.start, max a.stop b.stop⟩

namespace BufferUpdate

variable {N ALIGN : Nat}

/-- `BufferUpdate::sparse`. -/
def sparse (memory : Bool) (previousRevision : UInt64) (range : ByteRange) :
    BufferUpdate N ALIGN :=
  ⟨previousRevision, range, some (.new memory range)⟩

/-- `Clone`. -/
def clone (memory : Bool) (update : BufferUpdate N ALIGN) : BufferUpdate N ALIGN :=
  { update with intervals := update.intervals.map (.clone memory) }

/-- `include_range`. -/
def includeRange (update : BufferUpdate N ALIGN) (range : ByteRange) : BufferUpdate N ALIGN :=
  { update with
    range := update.range.join range
    intervals := update.intervals.map fun intervals => intervals.includeRange range }

/-- `merge_previous`. -/
def mergePrevious (update previous : BufferUpdate N ALIGN) : BufferUpdate N ALIGN where
  previousRevision := previous.previousRevision
  range := update.range.join previous.range
  intervals :=
    if previous.intervals.any fun earlier => earlier.ranges.isEmpty then some ⟨[]⟩
    else
      update.intervals.map fun intervals =>
        match previous.intervals with
        | some earlier => earlier.ranges.foldl BufferIntervals.includeRange intervals
        | none => intervals.includeRange previous.range

end BufferUpdate

/-! ## Sources -/

/-- `BufferOverlay`. -/
structure BufferOverlay where
  range : ByteRange
  bytes : List UInt8

/-- `BufferSource`. -/
inductive BufferSource where
  | contiguous (bytes : List UInt8)
  | sparse (base : Option (List UInt8)) (overlays : List BufferOverlay) (len : Nat)

/-- `copy_intersection`. -/
def copyIntersection (source : List UInt8) (sourceStart : Nat) (requested : ByteRange)
    (destination : List UInt8) : List UInt8 :=
  let first := max requested.start sourceStart
  let last := min requested.stop (sourceStart + source.length)
  if last ≤ first then destination
  else
    Bytes.splice destination (first - requested.start)
      ((source.drop (first - sourceStart)).take (last - first))

namespace BufferSource

/-- `BufferSource::len`. -/
def len : BufferSource → Nat
  | contiguous bytes => bytes.length
  | sparse _ _ len => len

/-- `copy_range`, into a destination of `length` bytes. -/
def copyRange (source : BufferSource) (range : ByteRange) (length : Nat) :
    Except Error (List UInt8) :=
  if range.stop < range.start ∨ range.stop - range.start ≠ length ∨ source.len < range.stop then
    .error .outOfBounds
  else
    match source with
    | contiguous bytes => .ok ((bytes.drop range.start).take (range.stop - range.start))
    | sparse base overlays _ =>
        let destination := List.replicate length 0
        let destination := match base with
          | some base => copyIntersection base 0 range destination
          | none => destination
        .ok ((intersecting overlays range BufferOverlay.range).foldl
          (fun destination overlay =>
            copyIntersection overlay.bytes overlay.range.start range destination) destination)

/-- `direct_range`. -/
def directRange (source : BufferSource) (range : ByteRange) : Option (List UInt8) :=
  match source with
  | contiguous bytes =>
      if range.start ≤ range.stop ∧ range.stop ≤ bytes.length then
        some ((bytes.drop range.start).take (range.stop - range.start))
      else none
  | sparse .. => none

end BufferSource

/-! ## Copying -/

/-- What the destination of `copy_intersection` holds afterwards. -/
theorem get_copyIntersection {source destination : List UInt8} {sourceStart : Nat}
    {requested : ByteRange} (length : destination.length = requested.stop - requested.start)
    (i : Nat) :
    Bytes.get (copyIntersection source sourceStart requested destination) i =
      if sourceStart ≤ requested.start + i ∧ requested.start + i < sourceStart + source.length ∧
          i < destination.length
        then Bytes.get source (requested.start + i - sourceStart)
        else Bytes.get destination i := by
  rw [copyIntersection]
  split
  · rename_i apart
    rw [if_neg (by omega)]
  · rename_i meet
    have count : ((source.drop (max requested.start sourceStart - sourceStart)).take
        (min requested.stop (sourceStart + source.length) - max requested.start sourceStart)).length =
        min requested.stop (sourceStart + source.length) - max requested.start sourceStart := by
      rw [List.length_take, List.length_drop]
      omega
    rw [Bytes.get_splice (by omega), count]
    by_cases here : max requested.start sourceStart - requested.start ≤ i ∧
        i < max requested.start sourceStart - requested.start +
          (min requested.stop (sourceStart + source.length) - max requested.start sourceStart)
    · rw [if_pos here, if_pos (by omega), Bytes.get_take, if_pos (by omega), Bytes.get_drop]
      congr 1
      omega
    · rw [if_neg here, if_neg (by omega)]

theorem copyIntersection_length {source destination : List UInt8} {sourceStart : Nat}
    {requested : ByteRange} (length : destination.length = requested.stop - requested.start) :
    (copyIntersection source sourceStart requested destination).length = destination.length := by
  rw [copyIntersection]
  split
  · rfl
  · refine Bytes.splice_length ?_
    rw [List.length_take, List.length_drop]
    omega

end Sgfx
