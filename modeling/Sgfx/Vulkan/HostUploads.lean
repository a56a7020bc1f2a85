import Sgfx.Vulkan.HostMemory

/-!
# Host uploads of a recording

Before a recording runs, the host-written bytes that it reads are written into the buffers.
`collect` gathers what is read, in whole words; `merge` merges it in place; `snapshot` copies it
from the mirrors.  Of memory that is not mapped, a buffer is written once.

## Main Definitions

* `descriptorRange`, `dynamicOffset`
* `collect`, `merge`, `snapshot`, `forRecording`
-/

namespace Sgfx.Vulkan

/-- `DescriptorInsertion`, with the bindings of its layout. -/
structure DescriptorInsertion where
  position : Nat
  index : UInt32
  entries : List UInt32
  set : DescriptorSetHandle
  dynamicOffsets : List UInt32
deriving DecidableEq, Repr

/-- `Ranges`. -/
abbrev UploadRanges : Type := Std.TreeMap BufferHandle (List MemoryRange)

/-- `OwnedCommand::WriteBuffer`. -/
structure BufferWrite where
  buffer : BufferId
  offset : Nat
  data : List UInt8
deriving DecidableEq

/-- `vk::WHOLE_SIZE`. -/
def wholeSize : Nat := 2 ^ 64 - 1

/-- `checked_sub`. -/
def checkedSub (a b : Nat) : Option Nat := if b ≤ a then some (a - b) else none

/-- `descriptor_range`. -/
def descriptorRange (size offset range dynamic : Nat) : Except Stop MemoryRange := do
  let length ← (if range = wholeSize then do
      failIf (dynamic ≠ 0) invalid
      okOr (checkedSub size offset) invalid
    else return range : Except Stop Nat)
  let start ← okOr (checkedAddUsize offset dynamic) invalid
  let stop ← okOr (checkedAddUsize start length) invalid
  failIf (size < stop) invalid
  failIf (length = 0) invalid
  return ⟨start, stop⟩

/-- A dynamic uniform or storage buffer. -/
def DescriptorType.isDynamic : DescriptorType → Bool
  | .uniformBufferDynamic | .storageBufferDynamic => true
  | .other _ => false

/-- The bindings of dynamic buffers, in order. -/
def DescriptorSet.dynamicBindings (set : DescriptorSet) : List UInt32 :=
  (set.types.filter fun entry => entry.2.isDynamic).map Prod.fst

/-- `dynamic_offset`. -/
def dynamicOffset (set : DescriptorSet) (binding : UInt32) (offsets : List UInt32) :
    Except Stop Nat := do
  failIf (set.dynamicBindings.length ≠ offsets.length) invalid
  if binding ∈ set.dynamicBindings then do
    let offset ← orPanic offsets[(set.dynamicBindings.filter (· < binding)).length]?
    return offset.toNat
  else return 0

/-- `checked_next_multiple_of(4)`. -/
def checkedNextMultipleOf4 (n : Nat) : Option Nat :=
  if (n + 3) / 4 * 4 < 2 ^ 64 then some ((n + 3) / 4 * 4) else none

/-- A range in whole words, up to the end of the buffer. -/
def wordRange (range : MemoryRange) (size : Nat) : Except Stop MemoryRange := do
  let stop ← okOr (checkedNextMultipleOf4 range.stop) invalid
  return ⟨range.start / 4 * 4, min stop size⟩

/-- `ranges.entry(handle).or_default().push(range)`. -/
def pushRange (ranges : UploadRanges) (handle : BufferHandle) (range : MemoryRange) :
    UploadRanges :=
  ranges.alter handle fun old => some (old.getD [] ++ [range])

/-- One turn of the loop over the buffers that are used as a whole. -/
def collectUsed (resources : Resources) (ranges : UploadRanges) (handle : BufferHandle) :
    Except Stop UploadRanges := do
  let buffer ← okOr (resources.buffers handle) invalid
  return ranges.alter handle fun old => some (old.getD [⟨0, buffer.size.toNat⟩])

/-- One turn of the loop over the ranges that are copied from a buffer. -/
def collectSource (handle : BufferHandle) (size : Nat) (ranges : UploadRanges)
    (range : MemoryRange) : Except Stop UploadRanges := do
  failIf (range.stop < range.start ∨ size < range.stop) invalid
  if range.start = range.stop then return ranges
  else return pushRange ranges handle (← wordRange range size)

/-- One turn of the loop over the bindings of a set. -/
def collectBinding (resources : Resources) (set : DescriptorSet) (insertion : DescriptorInsertion)
    (ranges : UploadRanges) : UInt32 × DescriptorBinding → Except Stop UploadRanges
  | (binding, .buffer buffer offset range) => do
      let slot ← okOr (set.bindingMap binding) invalid
      if slot ∉ insertion.entries then return ranges
      else do
        let dynamic ← dynamicOffset set binding insertion.dynamicOffsets
        let data ← okOr (resources.buffers buffer) invalid
        let range ← descriptorRange data.size.toNat offset.toNat range.toNat dynamic
        return pushRange ranges buffer (← wordRange range data.size.toNat)
  | (_, .other) => return ranges

/-- One turn of the loop over the descriptor sets. -/
def collectInsertion (resources : Resources) (ranges : UploadRanges)
    (insertion : DescriptorInsertion) : Except Stop UploadRanges := do
  let set ← okOr (resources.descriptorSets insertion.set) invalid
  failIf (set.dynamicBindings.length ≠ insertion.dynamicOffsets.length) invalid
  set.bindings.foldlM (collectBinding resources set insertion) ranges

/-- `collect`. -/
def collect (resources : Resources) (used : List BufferHandle)
    (descriptors : List DescriptorInsertion) (sources : UploadRanges) :
    Except Stop UploadRanges := do
  let ranges ← used.foldlM (collectUsed resources) ∅
  let ranges ← sources.toList.foldlM (fun ranges (handle, sourceRanges) => do
    let buffer ← okOr (resources.buffers handle) invalid
    sourceRanges.foldlM (collectSource handle buffer.size.toNat) ranges) ranges
  descriptors.foldlM (collectInsertion resources) ranges

/-- `sort_unstable_by_key`, by where the ranges start: those that start at one place come in any
order. -/
structure StartSort where
  sort : List MemoryRange → List MemoryRange
  perm : ∀ ranges, (sort ranges).Perm ranges
  sorted : ∀ ranges, (sort ranges).Pairwise fun a b => a.start ≤ b.start

/-- `ranges.swap(a, b)`. -/
def swapAt (ranges : List MemoryRange) (a b : Nat) : Except Stop (List MemoryRange) := do
  let x ← orPanic ranges[a]?
  let y ← orPanic ranges[b]?
  return (ranges.set a y).set b x

/-- One turn of the loop of `merge`. -/
def mergeTurn (state : List MemoryRange × Nat) (index : Nat) :
    Except Stop (List MemoryRange × Nat) := do
  let (ranges, count) := state
  let here ← orPanic ranges[index]?
  if count = 0 then return (← swapAt ranges count index, count + 1)
  else do
    let last ← orPanic ranges[count - 1]?
    if here.start ≤ last.stop then
      return (ranges.set (count - 1) { last with stop := max last.stop here.stop }, count)
    else return (← swapAt ranges count index, count + 1)

/-- `merge`. -/
def merge (sorting : StartSort) (ranges : List MemoryRange) : Except Stop (List MemoryRange) := do
  let sorted := sorting.sort ranges
  let (merged, count) ← (List.range sorted.length).foldlM mergeTurn (sorted, 0)
  return merged.take count

/-- The write of a range of a buffer at `offset` of its allocation. -/
def snapshotRange (buffer : BufferId) (offset : Nat) (bytes : Option (List UInt8))
    (range : MemoryRange) : Except Stop BufferWrite := do
  let start ← okOr (checkedAddUsize offset range.start) invalid
  let stop ← okOr (checkedAddUsize offset range.stop) invalid
  let mirror ← orPanic bytes
  let part ← okOr (indexRange mirror start stop) invalid
  return ⟨buffer, range.start, Bytes.resize part ((part.length + 3) / 4 * 4)⟩

/-- One turn of the loop of `snapshot`: the writes of a buffer, and the buffer if it is fresh. -/
def snapshotBuffer (sorting : StartSort) (resources : Resources) (handle : BufferHandle)
    (ranges : List MemoryRange) :
    Except Stop (List BufferWrite × List (BufferHandle × DeviceMemory)) := do
  let buffer ← okOr (resources.buffers handle) invalid
  match buffer.bound with
  | none => return ([], [])
  | some (memory, offset) => do
      let allocation ← okOr (resources.memories memory) invalid
      if allocation.hostWritten = false then return ([], [])
      else do
        let ranges ← merge sorting ranges
        if allocation.mapped = false ∧ resources.uploadedUnmappedBuffers handle then
          return ([], [])
        else do
          let writes ← ranges.mapM (snapshotRange buffer.id offset.toNat allocation.bytes)
          return (writes, if allocation.mapped = false ∧ ranges = [⟨0, buffer.size.toNat⟩] then
            [(handle, memory)] else [])

/-- `snapshot`. -/
def snapshot (sorting : StartSort) (resources : Resources) (ranges : UploadRanges) :
    Except Stop (List BufferWrite × List (BufferHandle × DeviceMemory)) :=
  ranges.toList.foldlM (fun (ops, fresh) (handle, ranges) => do
    let (writes, synchronized) ← snapshotBuffer sorting resources handle ranges
    return (ops ++ writes, fresh ++ synchronized)) ([], [])

/-- `for_recording`. -/
def forRecording (sorting : StartSort) (resources : Resources) (used : List BufferHandle)
    (descriptors : List DescriptorInsertion) (sources : UploadRanges) :
    Except Stop (List BufferWrite × List (BufferHandle × DeviceMemory)) := do
  snapshot sorting resources (← collect resources used descriptors sources)

end Sgfx.Vulkan
