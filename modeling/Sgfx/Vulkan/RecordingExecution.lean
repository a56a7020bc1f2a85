import Sgfx.Owned
import Sgfx.Vulkan.HostUploads
import Sgfx.Vulkan.Readbacks

/-!
# Execution of a recording

`execute` puts what the resolution of a recording left for later into its stream of commands,
submits the stream, and reads back what the device wrote into the mirrors.

The device is a parameter.  What it does changes its own state only; a resource of the host is
changed by `execute` itself.  The flag that the device is lost, which nothing here reads, is left
out.

## Main Definitions

* `StreamCommand`, `ResolvedRecording`
* `Backend`, `Execution`
* `assemble` — the stream of commands
* `readBack` — what the device wrote
* `execute`
-/

namespace Sgfx.Vulkan

/-- `ir::OwnedCommand`; the payload of an upload is its bytes. -/
inductive StreamCommand where
  | writeBuffer (write : BufferWrite)
  | setBindGroup (index : UInt32) (bindGroup : BindGroupId)
  | resourceBarrier (barrier : OwnedResourceBarrier)
  | recorded (command : OwnedCommand)
deriving DecidableEq

/-- `ReadImage`: `part` is the image, its mip level and its region. -/
structure ReadImage (π : Type) where
  position : Nat
  order : Nat
  buffer : BufferHandle
  part : π

/-- `DeferredBarrier`. -/
structure DeferredBarrier where
  position : Nat
  buffers : List BufferHandle
  after : BufferAccess

/-- `synchronization2::Insertion`. -/
structure SynchronizationInsertion (ω : Type) where
  position : Nat
  order : Nat
  action : ω

/-- `ResolvedRecording`, as far as `execute` depends on it. -/
structure ResolvedRecording (π ω : Type) where
  ops : List OwnedCommand
  descriptors : List DescriptorInsertion
  copies : List (ReadImage π)
  barriers : List DeferredBarrier
  synchronizations : List (SynchronizationInsertion ω)
  usedBuffers : List BufferHandle
  sourceUploadRanges : UploadRanges
  readbackBuffers : Readbacks

/-- What `execute` asks of the device, whose state is `β`: `ρ` are the receipts of submissions, `π`
the parts of images that are read, `ω` the actions between commands. -/
structure Backend (β ρ π ω : Type) where
  /-- `descriptor_group_with_layout`. -/
  descriptorGroup : Resources → DescriptorInsertion → Fallible β Stop BindGroupId
  /-- `submit_owned`. -/
  submitOwned : List StreamCommand → Fallible β Stop (List ρ)
  /-- `wait_submission`. -/
  waitSubmission : ρ → Fallible β Stop Unit
  /-- `poll`: whether the submission is complete. -/
  poll : ρ → Fallible β Stop Bool
  /-- `read_texture_mip`. -/
  readTextureMip : π → Fallible β Stop (List UInt8)
  /-- `ImageReadbackRegion::writes`. -/
  writes : π → List UInt8 → BufferId → Except Stop (List BufferWrite)
  /-- `synchronization2::execute`: the commands that are left. -/
  synchronize : Resources → ω → List StreamCommand →
    Fallible (β × List ρ) Stop (List StreamCommand)
  /-- `supports_immediate_buffer_readback`. -/
  immediateReadback : Bool
  /-- `read_buffer`. -/
  readBuffer : BufferId → Nat → Nat → Fallible β Stop (List UInt8)

/-- The resources of the host, the state of the device, and `retained_submissions`. -/
structure Execution (β ρ : Type) where
  resources : Resources
  backend : β
  retained : List ρ

/-- `memories.get_mut(&memory)`, with other bytes in the mirror. -/
def Resources.withMirror (resources : Resources) (memory : DeviceMemory) (allocation : Memory)
    (bytes : List UInt8) : Resources :=
  { resources with
    memories := fun other =>
      if other = memory then some { allocation with bytes := some bytes }
      else resources.memories other }

/-- `forget_uploads_for_memory_range`.  A buffer is bound inside its allocation, so its end does not
overflow. -/
def Resources.forgetUploads (resources : Resources) (memory : DeviceMemory) (range : MemoryRange)
    (synchronized : BufferHandle) : Resources :=
  { resources with
    uploadedUnmappedBuffers := fun handle =>
      resources.uploadedUnmappedBuffers handle && (handle == synchronized ||
        (resources.buffers handle).any fun buffer =>
          buffer.bound.any fun (bound, offset) =>
            bound != memory || decide (range.stop ≤ offset.toNat) ||
              decide (offset.toNat + buffer.size.toNat ≤ range.start)) }

/-- `uploaded_unmapped_buffers.insert`, of some buffers. -/
def Resources.markUploaded (resources : Resources) (fresh : List BufferHandle) : Resources :=
  { resources with
    uploadedUnmappedBuffers := fun handle =>
      decide (handle ∈ fresh) || resources.uploadedUnmappedBuffers handle }

/-- `take_positioned`: the first items that are at the position, and those after them. -/
def takePositioned {α : Type} (remaining : List α) (position : Nat) (key : α → Nat) :
    List α × List α :=
  remaining.span fun item => key item == position

/-- The identities of some buffers, each one once. -/
def barrierIds (resources : Resources) (buffers : List BufferHandle) :
    Except Stop (List BufferId) :=
  buffers.foldlM (fun ids handle => do
    let buffer ← okOr (resources.buffers handle) invalid
    return if buffer.id ∈ ids then ids else ids ++ [buffer.id]) []

/-- The lists of insertions that are left, and the commands that are not submitted yet. -/
structure Stream (π ω : Type) where
  descriptors : List DescriptorInsertion
  barriers : List DeferredBarrier
  copies : List (ReadImage π)
  synchronizations : List (SynchronizationInsertion ω)
  ops : List StreamCommand

section Execute

variable {β ρ π ω : Type}

/-- Work of the device. -/
def onBackend {α : Type} (work : Fallible β Stop α) : Fallible (Execution β ρ) Stop α :=
  Fallible.zoom Execution.backend (fun state backend => { state with backend }) work

/-- Work of the device and on the receipts. -/
def onReceipts {α : Type} (work : Fallible (β × List ρ) Stop α) :
    Fallible (Execution β ρ) Stop α :=
  Fallible.zoom (fun state => (state.backend, state.retained))
    (fun state (backend, retained) => { state with backend, retained }) work

variable (backend : Backend β ρ π ω)

/-- `retained_submissions.extend(submit_owned(rt, ops)?)`. -/
def submit (ops : List StreamCommand) : Fallible (Execution β ρ) Stop Unit := do
  let receipts ← onBackend (backend.submitOwned ops)
  Fallible.update fun state => { state with retained := state.retained ++ receipts }

/-- `for submission in retained_submissions.drain(..)`. -/
def drain : Fallible (β × List ρ) Stop Unit := do
  let (_, retained) ← Fallible.read
  Fallible.update fun (device, _) => (device, [])
  Fallible.loop retained fun receipt =>
    Fallible.zoom Prod.fst (fun state device => (device, state.2)) (backend.waitSubmission receipt)

/-- The commands of a descriptor set. -/
def insertDescriptor (ops : List StreamCommand) (insertion : DescriptorInsertion) :
    Fallible (Execution β ρ) Stop (List StreamCommand) := do
  let state ← Fallible.read
  let group ← onBackend (backend.descriptorGroup state.resources insertion)
  return ops ++ [.setBindGroup insertion.index group]

/-- The commands of a barrier. -/
def insertBarrier (ops : List StreamCommand) (barrier : DeferredBarrier) :
    Fallible (Execution β ρ) Stop (List StreamCommand) := do
  let state ← Fallible.read
  let ids ← (barrierIds state.resources barrier.buffers : Except Stop (List BufferId))
  return ops ++ ids.map fun id => .resourceBarrier (.buffer id .storageReadWrite barrier.after)

/-- The loops over `synchronizations.first()`. -/
def synchronizeWhile (due : SynchronizationInsertion ω → Bool) :
    List (SynchronizationInsertion ω) → List StreamCommand →
      Fallible (Execution β ρ) Stop (List (SynchronizationInsertion ω) × List StreamCommand)
  | [], ops => return ([], ops)
  | insertion :: later, ops =>
    if due insertion then do
      let state ← Fallible.read
      let ops ← onReceipts (backend.synchronize state.resources insertion.action ops)
      synchronizeWhile due later ops
    else return (insertion :: later, ops)

/-- One turn of the loop over the images that are read. -/
def insertCopy (position : Nat)
    (stream : List (SynchronizationInsertion ω) × List StreamCommand) (copy : ReadImage π) :
    Fallible (Execution β ρ) Stop (List (SynchronizationInsertion ω) × List StreamCommand) := do
  let (synchronizations, ops) ← synchronizeWhile backend
    (fun insertion => insertion.position == position && decide (insertion.order ≤ copy.order))
    stream.1 stream.2
  submit backend ops
  onReceipts (drain backend)
  let bytes ← onBackend (backend.readTextureMip copy.part)
  let state ← Fallible.read
  let buffer ← (okOr (state.resources.buffers copy.buffer) invalid : Except Stop Buffer)
  let writes ← (backend.writes copy.part bytes buffer.id : Except Stop (List BufferWrite))
  return (synchronizations, writes.map .writeBuffer)

/-- One turn of the loop over the positions: what is inserted there, and the recorded command. -/
def assembleTurn (recorded : List OwnedCommand) (stream : Stream π ω) (position : Nat) :
    Fallible (Execution β ρ) Stop (Stream π ω) := do
  let (descriptors, laterDescriptors) :=
    takePositioned stream.descriptors position DescriptorInsertion.position
  let ops ← descriptors.foldlM (insertDescriptor backend) stream.ops
  let (barriers, laterBarriers) := takePositioned stream.barriers position DeferredBarrier.position
  let ops ← barriers.foldlM insertBarrier ops
  let (copies, laterCopies) := takePositioned stream.copies position ReadImage.position
  let (synchronizations, ops) ←
    copies.foldlM (insertCopy backend position) (stream.synchronizations, ops)
  let (synchronizations, ops) ← synchronizeWhile backend
    (fun insertion => insertion.position == position) synchronizations ops
  return { descriptors := laterDescriptors, barriers := laterBarriers, copies := laterCopies,
           synchronizations, ops := ops ++ recorded[position]?.toList.map .recorded }

/-- The commands that are left to submit after the last position. -/
def assemble (rec : ResolvedRecording π ω) (uploads : List BufferWrite) :
    Fallible (Execution β ρ) Stop (List StreamCommand) := do
  let stream ← (List.range (rec.ops.length + 1)).foldlM (assembleTurn backend rec.ops)
    { descriptors := rec.descriptors, barriers := rec.barriers, copies := rec.copies,
      synchronizations := rec.synchronizations, ops := uploads.map .writeBuffer }
  return stream.ops

/-- The wait before bytes are read back, where the device does not have them at once. -/
def readbackWait (readback : Readbacks) : Fallible (Execution β ρ) Stop Unit := do
  if readback.ranges.isEmpty = false ∧ backend.immediateReadback = false then do
    let state ← Fallible.read
    Fallible.loop state.retained fun receipt => onBackend (backend.waitSubmission receipt)
    Fallible.update fun state => { state with retained := [] }
  else pure ()

/-- One turn of the loop over the ranges of a buffer. -/
def readBackRange (handle : BufferHandle) (id : BufferId) (memory : DeviceMemory) (offset : UInt64)
    (range : MemoryRange) : Fallible (Execution β ρ) Stop Unit := do
  let bytes ← onBackend (backend.readBuffer id range.start (range.stop - range.start))
  let state ← Fallible.read
  let allocation ← (okOr (state.resources.memories memory) invalid : Except Stop Memory)
  let start ← (orPanic (checkedAddUsize offset.toNat range.start) : Except Stop Nat)
  let stop ← (orPanic (checkedAddUsize offset.toNat range.stop) : Except Stop Nat)
  let mirror ← (orPanic allocation.bytes : Except Stop (List UInt8))
  let mirror ← (orPanic (copyFromSlice mirror start stop bytes) : Except Stop (List UInt8))
  Fallible.update fun state =>
    { state with
      resources := (state.resources.withMirror memory allocation mirror).forgetUploads memory
        ⟨start, stop⟩ handle }

/-- One turn of the loop over the tracked buffers. -/
def readBackBuffer (entry : BufferHandle × List MemoryRange) :
    Fallible (Execution β ρ) Stop Unit := do
  let state ← Fallible.read
  let buffer ← (okOr (state.resources.buffers entry.1) invalid : Except Stop Buffer)
  match buffer.bound with
  | none => pure ()
  | some (memory, offset) =>
    Fallible.loop entry.2 (readBackRange backend entry.1 buffer.id memory offset)

/-- The loop over the tracked buffers. -/
def readBack (readback : Readbacks) : Fallible (Execution β ρ) Stop Unit :=
  Fallible.loop readback.ranges.toList (readBackBuffer backend)

/-- `reap_completed`.  Every receipt is polled; the last failure counts. -/
def reapCompleted : Fallible (β × List ρ) Stop Unit := do
  let (_, retained) ← Fallible.read
  let (kept, failure) ← retained.foldlM (fun (kept, failure) receipt state =>
    match backend.poll receipt state.1 with
    | (.ok complete, device) =>
      (.ok (if complete then kept else kept ++ [receipt], failure), (device, state.2))
    | (.error error, device) => (.ok (kept, some error), (device, state.2)))
    (([], none) : List ρ × Option Stop)
  Fallible.update fun (device, _) => (device, kept)
  match failure with
  | some error => Fallible.fail error
  | none => if 64 ≤ kept.length then drain backend else pure ()

/-- `execute`. -/
def execute (sorting : StartSort) (rec : ResolvedRecording π ω) :
    Fallible (Execution β ρ) Stop Unit := do
  let state ← Fallible.read
  let (uploads, fresh) ← (forRecording sorting state.resources rec.usedBuffers rec.descriptors
    rec.sourceUploadRanges : Except Stop (List BufferWrite × List (BufferHandle × DeviceMemory)))
  let ops ← assemble backend rec uploads
  submit backend ops
  readbackWait backend rec.readbackBuffers
  Fallible.update fun state =>
    { state with resources := state.resources.markUploaded (fresh.map Prod.fst) }
  readBack backend rec.readbackBuffers
  onReceipts (reapCompleted backend)

end Execute

end Sgfx.Vulkan
