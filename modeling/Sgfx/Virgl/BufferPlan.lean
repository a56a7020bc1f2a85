import Sgfx.Buffers.Updates

/-!
# Pending buffer plans

The VirGL backend keeps an accepted copy of every buffer, its *shadow*.  The buffer
writes and copies of a stream are layered over the shadows in a `BufferOnlyPlan`:
each write is trimmed to the bytes it changes, kept once, and found again through the
range index of its buffer.  Reading goes through the layers; publication replays the
writes in order on the shadows, if the stream was accepted.

Every allocation of the source is a question to an oracle here, since running out of
memory must leave everything as it was.

## Main Definitions

* `BufferShadow`, `BufferOnlyPlan`
* `BufferOnlyPlan.write`, `BufferOnlyPlan.copy` — recording
* `BufferOnlyPlan.readRange`, `BufferOnlyPlan.source`, `BufferOnlyPlan.range` — reading
* `BufferOnlyPlan.reserve`, `PreparedBufferOnlyPlan.publish`
-/

namespace Sgfx.Virgl

open Ranges

/-- `MAX_BUFFER_DIRTY_INTERVALS`. -/
def maxBufferDirtyIntervals : Nat := 128

/-- `IrBufferUpdate`. -/
abbrev IrBufferUpdate := BufferUpdate maxBufferDirtyIntervals 4

/-- `IrSubmitError`, as far as buffers raise it; `E` is `HandleError`. -/
inductive IrSubmitError (E : Type) where
  | invalidIr (error : Error)
  | unsupported
  | invalidVertexData
  | outOfMemory
  | submissionTooLarge
  | backend (error : E)
  | submissionFailed

/-! ## Shadows -/

/-- `BufferShadow`. -/
structure BufferShadow where
  bytes : Option (List UInt8)
  revision : UInt64
  upload : Option IrBufferUpdate

namespace BufferShadow

/-- `BufferShadow::default`. -/
def default : BufferShadow := ⟨none, 0, none⟩

/-- The length of the bytes, zero when there are none. -/
def length (shadow : BufferShadow) : Nat := (shadow.bytes.map List.length).getD 0

/-- `merged_upload`. -/
def mergedUpload (shadow : BufferShadow) (update : IrBufferUpdate) : IrBufferUpdate :=
  match shadow.upload with
  | some previous =>
      if update.previousRevision = shadow.revision ∧
          previous.previousRevision < shadow.revision then
        update.mergePrevious previous
      else update
  | none => update

/-- `replace`. -/
def replace (shadow : BufferShadow) (bytes : List UInt8) (revision : UInt64)
    (upload : Option IrBufferUpdate) : BufferShadow :=
  ⟨some bytes, revision, upload.map shadow.mergedUpload⟩

end BufferShadow

/-- What a slot holds: the bytes of its shadow. -/
def baseOf (shadows : List BufferShadow) (slot : Nat) : List UInt8 :=
  ((shadows[slot]?).bind BufferShadow.bytes).getD []

/-! ## Plans -/

/-- `BufferRangeWrite`. -/
structure BufferRangeWrite where
  slot : Nat
  start : Nat
  data : List UInt8
  range : ByteRange

/-- `BufferRangeWrite::bytes`. -/
def BufferRangeWrite.bytes (write : BufferRangeWrite) : List UInt8 :=
  (write.data.drop write.range.start).take (write.range.stop - write.range.start)

/-- `BufferRangeUpdate`. -/
structure BufferRangeUpdate where
  slot : Nat
  revision : UInt64
  length : Nat
  upload : IrBufferUpdate
  fresh : Option (List UInt8)
  ranges : RangeIndex

/-- `BufferOnlyPlan`: the updates, sorted by slot, and the writes in order. -/
structure BufferOnlyPlan where
  updates : List BufferRangeUpdate
  writes : List BufferRangeWrite

/-- Where a plan allocates. -/
inductive PlanSite where
  | snapshot
  | writes
  | ranges
  | updates
  | intervals

namespace BufferOnlyPlan

variable {E : Type}

/-- `BufferOnlyPlan::default`. -/
def empty : BufferOnlyPlan := ⟨[], []⟩

/-- `update_for_slot`; the updates are sorted, so the binary search finds the one
there is. -/
def updateForSlot (plan : BufferOnlyPlan) (slot : Nat) : Option BufferRangeUpdate :=
  plan.updates.find? fun update => update.slot == slot

/-- Change the update of a slot in place. -/
def modifyUpdate (slot : Nat) (f : BufferRangeUpdate → BufferRangeUpdate) :
    List BufferRangeUpdate → List BufferRangeUpdate
  | [] => []
  | update :: rest =>
      if update.slot == slot then f update :: rest else update :: modifyUpdate slot f rest

/-- Insert an update at the partition point of its slot. -/
def insertUpdate (update : BufferRangeUpdate) (updates : List BufferRangeUpdate) :
    List BufferRangeUpdate :=
  let index := partitionPoint (fun other => decide (other.slot < update.slot)) updates
  updates.take index ++ update :: updates.drop index

/-- The body of the loop of `read_range`: the part of a segment inside the window is
copied from its write. -/
def pasteSegment (writes : List BufferRangeWrite) (start stop : Nat) (bytes : List UInt8)
    (segment : Ranges.Segment) : List UInt8 :=
  match writes[segment.write]? with
  | some write =>
      let first := max start segment.start
      let last := min stop segment.stop
      Bytes.splice bytes (first - start)
        ((write.bytes.drop (first - write.start)).take (last - first))
  | none => bytes

/-- `read_range`, into a window of `length` bytes. -/
def readRange (plan : BufferOnlyPlan) (shadows : List BufferShadow) (slot start length : Nat) :
    List UInt8 :=
  let bytes := List.replicate length 0
  let bytes := match (shadows[slot]?).bind BufferShadow.bytes with
    | some previous =>
        if start < previous.length then
          Bytes.splice bytes 0
            ((previous.drop start).take (min length (previous.length - start)))
        else bytes
    | none => bytes
  let stop := start + length
  match plan.updateForSlot slot with
  | none => bytes
  | some update =>
      (update.ranges.query ⟨start, stop⟩).foldl (pasteSegment plan.writes start stop) bytes

/-- `length`. -/
def length (plan : BufferOnlyPlan) (shadows : List BufferShadow) (slot : Nat) : Nat :=
  let shadowLength := (baseOf shadows slot).length
  match plan.updateForSlot slot with
  | none => shadowLength
  | some update => max update.length shadowLength

/-- The overlays that `source` borrows. -/
def overlays (plan : BufferOnlyPlan) (slot : Nat) : List BufferOverlay :=
  match plan.updateForSlot slot with
  | none => []
  | some update => update.ranges.segments.filterMap fun segment =>
      (plan.writes[segment.write]?).map fun write =>
        ⟨segment.range, (write.bytes.drop (segment.start - write.start)).take
          (segment.stop - segment.start)⟩

/-- `source`. -/
def source (plan : BufferOnlyPlan) (shadow : BufferShadow) (slot : Nat) (memory : Bool) :
    Except (IrSubmitError E) BufferSource :=
  let length := match plan.updateForSlot slot with
    | none => shadow.length
    | some update => max update.length shadow.length
  let overlays := plan.overlays slot
  if overlays.isEmpty = false ∧ memory = false then .error .outOfMemory
  else if overlays.isEmpty ∧ length = shadow.length then
    match shadow.bytes with
    | some bytes => .ok (.contiguous bytes)
    | none => .error .invalidVertexData
  else .ok (.sparse shadow.bytes overlays length)

/-- `PendingBuffers::range`, after the reference was found in the table. -/
def range (plan : BufferOnlyPlan) (shadows : List BufferShadow) (slot : Nat) (range : ByteRange)
    (memory : Bool) : Except (IrSubmitError E) (List UInt8) :=
  if range.stop < range.start ∨ plan.length shadows slot < range.stop then
    .error .invalidVertexData
  else
    let overlaps := (plan.updateForSlot slot).any fun update =>
      (update.ranges.query range).isEmpty = false
    let borrowed := ((shadows[slot]?).bind BufferShadow.bytes).filter
      fun bytes => overlaps = false ∧ range.stop ≤ bytes.length
    match borrowed with
    | some bytes => .ok ((bytes.drop range.start).take (range.stop - range.start))
    | none =>
        if memory = false then .error .outOfMemory
        else .ok (plan.readRange shadows slot range.start (range.stop - range.start))

/-! ### Changed ranges -/

/-- The first loop of `changed_range`: 256 bytes at a time from `front` on. -/
def scanPrefix (read : Nat → Nat → List UInt8) (data : List UInt8) (overlap front : Nat) : Nat :=
  if front < overlap then
    let count := min 256 (overlap - front)
    let scratch := read front count
    let new := (data.drop front).take count
    let equal := if equalBufferChunk scratch new then count else commonPrefix scratch new
    if equal ≠ count then front + equal else scanPrefix read data overlap (front + equal)
  else front
termination_by overlap - front
decreasing_by
  rename_i inside same
  have _whole : equal = min 256 (overlap - front) := Classical.not_not.mp same
  show overlap - (front + equal) < overlap - front
  omega

/-- The second loop of `changed_range`: the bytes after the first `front`, from the
back. -/
def scanSuffix (read : Nat → Nat → List UInt8) (data : List UInt8) (front back : Nat) : Nat :=
  if back < data.length - front then
    let count := min 256 (data.length - front - back)
    let offset := data.length - back - count
    let scratch := read offset count
    let new := (data.drop offset).take count
    let equal := if equalBufferChunk scratch new then count else commonSuffix scratch new
    if equal ≠ count then back + equal else scanSuffix read data front (back + equal)
  else back
termination_by data.length - front - back
decreasing_by
  rename_i inside same
  have _whole : equal = min 256 (data.length - front - back) := Classical.not_not.mp same
  show data.length - front - (back + equal) < data.length - front - back
  omega

/-- `changed_range`. -/
def changedRange (plan : BufferOnlyPlan) (shadows : List BufferShadow) (slot start : Nat)
    (data : List UInt8) : Except (IrSubmitError E) (Option ByteRange) := do
  let stop ← okOr (checkedAddUsize start data.length) .invalidVertexData
  let shadow ← okOr shadows[slot]? .invalidVertexData
  match plan.updateForSlot slot with
  | none =>
      let changed ← okOr (changedBufferBytes shadow.bytes start data) .invalidVertexData
      pure (if changed.isEmpty then none else some changed)
  | some update =>
      let read := fun offset count => plan.readRange shadows slot (start + offset) count
      let front := scanPrefix read data (min (update.length - start) data.length) 0
      if front = data.length ∧ stop ≤ update.length then pure none
      else
        let back := if stop ≤ update.length then scanSuffix read data front 0 else 0
        pure (some ⟨min (start + front) update.length, stop - back⟩)

/-! ### Recording -/

/-- `write`. -/
def write (plan : BufferOnlyPlan) (shadows : List BufferShadow) (slot start : Nat)
    (data : List UInt8) (memory : PlanSite → Bool) : Except (IrSubmitError E) BufferOnlyPlan := do
  match ← plan.changedRange shadows slot start data with
  | none => pure plan
  | some changed =>
      let stop := start + data.length
      failIf (memory .writes = false) .outOfMemory
      let first := max start changed.start
      let range : ByteRange := ⟨first, changed.stop⟩
      let updates ← match plan.updateForSlot slot with
        | some update => do
            let ranges ← okOr (update.ranges.insert range plan.writes.length (memory .ranges))
              .outOfMemory
            pure (modifyUpdate slot (fun update => { update with
              ranges
              length := max update.length stop
              upload := update.upload.includeRange changed }) plan.updates)
        | none => do
            let shadow ← okOr shadows[slot]? .invalidVertexData
            let revision ← okOr (checkedAdd64 shadow.revision 1) .outOfMemory
            failIf (memory .updates = false) .outOfMemory
            let ranges ← okOr (RangeIndex.empty.insert range plan.writes.length (memory .ranges))
              .outOfMemory
            pure (insertUpdate
              { slot
                revision
                length := max stop shadow.length
                upload := .sparse (memory .intervals) shadow.revision changed
                fresh := none
                ranges } plan.updates)
      pure ⟨updates, plan.writes ++ [⟨slot, first, data, ⟨first - start, changed.stop - start⟩⟩]⟩

/-- `copy`. -/
def copy (plan : BufferOnlyPlan) (shadows : List BufferShadow) (source sourceStart destination
    start size : Nat) (memory : PlanSite → Bool) : Except (IrSubmitError E) BufferOnlyPlan := do
  let _ ← okOr (checkedAddUsize sourceStart size) (.invalidIr .overflow)
  failIf (memory .snapshot = false) .outOfMemory
  let bytes := plan.readRange shadows source sourceStart size
  plan.write shadows destination start bytes memory

end BufferOnlyPlan

/-! ## Publication -/

/-- `PreparedBufferOnlyPlan`. -/
structure PreparedBufferOnlyPlan where
  plan : BufferOnlyPlan

/-- `reserve`: it only moves capacities of the shadows, and prepares empty bytes for
the buffers that have none. -/
def BufferOnlyPlan.reserve {E : Type} (plan : BufferOnlyPlan) (shadows : List BufferShadow)
    (memory : Nat → Bool) : Except (IrSubmitError E) PreparedBufferOnlyPlan := do
  let updates ← plan.updates.mapM fun update =>
    if memory update.slot = false then .error .outOfMemory
    else
      match (shadows[update.slot]?).bind BufferShadow.bytes with
      | some _ => pure update
      | none => pure { update with fresh := some [] }
  pure ⟨⟨updates, plan.writes⟩⟩

namespace PreparedBufferOnlyPlan

variable {E : Type}

/-- `PreparedBufferOnlyPlan::update_for_slot`. -/
def updateForSlot (prepared : PreparedBufferOnlyPlan) (slot : Nat) : Option BufferRangeUpdate :=
  prepared.plan.updateForSlot slot

/-- `PreparedBufferOnlyPlan::source`. -/
def source (prepared : PreparedBufferOnlyPlan) (shadow : BufferShadow) (slot : Nat)
    (memory : Bool) : Except (IrSubmitError E) BufferSource :=
  prepared.plan.source shadow slot memory

/-- `upload_for_slot`; a clone may run out of memory. -/
def uploadForSlot (prepared : PreparedBufferOnlyPlan) (shadow : BufferShadow) (slot : Nat)
    (memory : Bool) : Option IrBufferUpdate :=
  match prepared.updateForSlot slot with
  | some update => some (shadow.mergedUpload (update.upload.clone memory))
  | none => shadow.upload.map (BufferUpdate.clone memory)

/-- The bytes of an update's buffer grow. -/
def growShadow (update : BufferRangeUpdate) (shadow : BufferShadow) : BufferShadow :=
  { shadow with bytes := (shadow.bytes.or update.fresh).map fun bytes =>
      Bytes.resize bytes update.length }

/-- A write is replayed on its buffer. -/
def replayShadow (write : BufferRangeWrite) (shadow : BufferShadow) : BufferShadow :=
  { shadow with bytes := shadow.bytes.map fun bytes => Bytes.splice bytes write.start write.bytes }

/-- An update's buffer gets its delta and revision. -/
def stampShadow (update : BufferRangeUpdate) (shadow : BufferShadow) : BufferShadow :=
  { shadow with upload := some (shadow.mergedUpload update.upload), revision := update.revision }

/-- The first loop of `publish`. -/
def grow (shadows : List BufferShadow) (update : BufferRangeUpdate) : List BufferShadow :=
  shadows.modify update.slot (growShadow update)

/-- The second loop of `publish`. -/
def replay (shadows : List BufferShadow) (write : BufferRangeWrite) : List BufferShadow :=
  shadows.modify write.slot (replayShadow write)

/-- The third loop of `publish`. -/
def stamp (shadows : List BufferShadow) (update : BufferRangeUpdate) : List BufferShadow :=
  shadows.modify update.slot (stampShadow update)

/-- `publish`. -/
def publish (prepared : PreparedBufferOnlyPlan) (shadows : List BufferShadow)
    (acceptance : Except (IrSubmitError E) Unit) :
    Except (IrSubmitError E) Unit × List BufferShadow :=
  match acceptance with
  | .error error => (.error error, shadows)
  | .ok () =>
      let shadows := prepared.plan.updates.foldl grow shadows
      let shadows := prepared.plan.writes.foldl replay shadows
      (.ok (), prepared.plan.updates.foldl stamp shadows)

end PreparedBufferOnlyPlan

end Sgfx.Virgl
