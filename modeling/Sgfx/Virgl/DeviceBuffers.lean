import Sgfx.Virgl.BufferDeltas
import Sgfx.Virgl.CanonicalVertices

/-!
# Buffers on the device

Before the draws of a stream go out, every buffer that they bind is brought to the bytes
that the stream's plan gives it: `prepareIrBuffer` compares the revision recorded for
physical storage with the revision of the plan, and uploads nothing, the delta, or all
of it.  In a synchronous stream each packet is accepted or fails on its own, and what was
uploaded before a failure stays; the packets of a tracked stream are staged, and its
checkpoint accepts all of them or none.

The device here is what packets do to buffers, and remembers what draws found there.
Everything that other parts answer (allocations, the transport, the other checks of a
stream, textures) is an argument and can be anything.

## Main Definitions

* `NativeCommand`, `Device` — packets, and what they do
* `uploadRanges`, `prepareIrBuffer`
* `lowerStream`, `BufferWorld.submitIr`, `BufferWorld.submitIrAsync`
* `BufferWorld.step`, `BufferWorld.run`
-/

namespace Sgfx.Virgl

open Bytes

/-! ## The device -/

/-- What a packet can name: the storage of a buffer, or an upload arena. -/
inductive NativeResource where
  | buffer (slot : Nat)
  | arena (index : Nat)
deriving DecidableEq, Repr

/-- The commands of packets, as far as buffers go: an inline write, a copy from an arena,
and the draws of a pass with the buffers that they bind. -/
inductive NativeCommand where
  | inlineWrite (resource : NativeResource) (offset : Nat) (bytes : List UInt8)
  | bufferCopy (slot offset : Nat) (arena arenaOffset length : Nat)
  | draws (buffers : List IrBufferSpec)

/-- What a draw found in a buffer that it binds. -/
structure Observation where
  slot : Nat
  contents : List UInt8
deriving DecidableEq, Repr

/-- What the accepted packets made of the storage, and what their draws found. -/
structure Device where
  memory : NativeResource → List UInt8
  observed : List Observation

namespace Device

/-- Write to a resource. -/
def write (device : Device) (resource : NativeResource) (offset : Nat) (bytes : List UInt8) :
    Device :=
  { device with memory :=
      Function.update device.memory resource (Bytes.write (device.memory resource) offset bytes) }

/-- Execute a command. -/
def execute (device : Device) : NativeCommand → Device
  | .inlineWrite resource offset bytes => device.write resource offset bytes
  | .bufferCopy slot offset arena arenaOffset length =>
      device.write (.buffer slot) offset (window (device.memory (.arena arena)) arenaOffset length)
  | .draws buffers =>
      { device with observed := device.observed ++
          buffers.map fun spec => ⟨spec.slot, device.memory (.buffer spec.slot)⟩ }

/-- Accept a packet. -/
def accept (device : Device) (packet : List NativeCommand) : Device := packet.foldl execute device

end Device

/-! ## NativeState state -/

/-- `HandleError`, as far as buffers raise it. -/
inductive HandleError where
  | invalidParameter
  | outOfResources
  | systemError (code : Int32)

/-- What a submission fails with. -/
abbrev NativeError := IrSubmitError HandleError

/-- `HandleError::InvalidParameter`, as a submission reports it. -/
def invalidParameter : NativeError := .backend .invalidParameter

/-- `IrBuffer`, without its handles. -/
structure IrBuffer where
  size : UInt64
  uploadedRevision : Option UInt64
deriving DecidableEq, Repr

/-- The buffers, the device, and the packets that are staged for the checkpoint. -/
structure NativeState where
  buffers : List (Option IrBuffer)
  device : Device
  staged : List (List NativeCommand)

/-- `SubmitMode`. -/
inductive SubmitMode where
  | synchronous
  | tracked
deriving DecidableEq, Repr

/-- The physical buffer of a slot. -/
def bufferAt (buffers : List (Option IrBuffer)) (slot : Nat) : Option IrBuffer :=
  (buffers[slot]?).join

namespace NativeState

/-- `SubmitMode::submit`: a packet is accepted at once, or staged. -/
def submit (mode : SubmitMode) (packet : List NativeCommand) : Fallible NativeState NativeError Unit :=
  .update fun native =>
    match mode with
    | .synchronous => { native with device := native.device.accept packet }
    | .tracked => { native with staged := native.staged ++ [packet] }

/-- Record an uploaded revision. -/
def setUploaded (slot : Nat) (revision : Option UInt64) (native : NativeState) : NativeState :=
  { native with buffers := native.buffers.modify slot fun buffer =>
      buffer.map fun buffer => { buffer with uploadedRevision := revision } }

/-- Put a new allocation with any contents in a slot. -/
def allocate (slot : Nat) (size : UInt64) (contents : List UInt8) (native : NativeState) : NativeState where
  buffers := native.buffers.set slot (some ⟨size, none⟩)
  device :=
    { native.device with
      memory := Function.update native.device.memory (.buffer slot) contents }
  staged := native.staged

/-- `ir_buffer`. -/
def irBuffer (spec : IrBufferSpec) (create : Except HandleError (List UInt8)) :
    Fallible NativeState NativeError IrBuffer := do
  let native ← Fallible.read
  failIf (spec.size = 0 ∨ 2 ^ 32 - 1 < spec.size.toNat) invalidParameter
  let slot ← okOr native.buffers[spec.slot]? invalidParameter
  match slot with
  | some buffer =>
      failIf (buffer.size ≠ spec.size) invalidParameter
      pure buffer
  | none =>
      let contents ← create.mapError IrSubmitError.backend
      Fallible.update (allocate spec.slot spec.size contents)
      pure ⟨spec.size, none⟩

/-- `uploaded_ir_buffer`, as a test. -/
def uploadedIrBuffer (native : NativeState) (spec : IrBufferSpec) : Bool :=
  (bufferAt native.buffers spec.slot).any fun buffer =>
    buffer.size == spec.size && buffer.uploadedRevision == some spec.revision

end NativeState

/-! ## Uploads -/

/-- `ir_buffer_upload_range`. -/
def uploadRange (uploadedRevision : Option UInt64) (revision : UInt64) (length : Nat)
    (update : Option IrBufferUpdate) : Except NativeError ByteRange :=
  match update with
  | none => .ok ⟨0, length⟩
  | some update =>
      if update.range.stop ≤ update.range.start ∨ length < update.range.stop then
        .error invalidParameter
      else if uploadedRevision ≠ some update.previousRevision ∨
          revision ≤ update.previousRevision then .ok ⟨0, length⟩
      else
        match checkedAddUsize update.range.stop 3 with
        | none => .error invalidParameter
        | some stop => .ok ⟨update.range.start / 4 * 4, min (stop / 4 * 4) length⟩

/-- The checks of `ir_buffer_upload_ranges` on intervals that are not empty. -/
def validIntervals (ranges : List ByteRange) (envelope : ByteRange) (length : Nat) : Bool :=
  decide (ranges.length ≤ maxBufferDirtyIntervals) &&
    ranges.head?.any (fun first => first.start == envelope.start) &&
    ranges.getLast?.any (fun last => last.stop == envelope.stop) &&
    ranges.all (fun range => decide (range.start < range.stop) && decide (range.stop ≤ length) &&
      range.start % 4 == 0 && range.stop % 4 == 0) &&
    (ranges.zip ranges.tail).all fun pair => decide (pair.1.stop < pair.2.start)

/-- `ir_buffer_upload_ranges`. -/
def uploadRanges (uploadedRevision : Option UInt64) (revision : UInt64) (length : Nat)
    (update : Option IrBufferUpdate) : Except NativeError (List ByteRange) := do
  let envelope ← uploadRange uploadedRevision revision length update
  match update with
  | none => pure [envelope]
  | some update =>
      if uploadedRevision ≠ some update.previousRevision ∨ revision ≤ update.previousRevision then
        pure [envelope]
      else
        match update.intervals with
        | none => pure [envelope]
        | some intervals =>
            if intervals.ranges.isEmpty then pure [⟨0, length⟩]
            else do
              failIf (validIntervals intervals.ranges envelope length = false)
                invalidParameter
              pure intervals.ranges

/-- The offsets of the inner loop of `prepare_ir_buffer`, from `offset` on; there are no
more chunks than bytes. -/
def chunkRanges (maxPayload stop : Nat) : Nat → Nat → List ByteRange
  | 0, _ => []
  | bytes + 1, offset =>
      if offset < stop then
        ⟨offset, min (offset + maxPayload) stop⟩ ::
          chunkRanges maxPayload stop bytes (min (offset + maxPayload) stop)
      else []

/-- The packet of `push_ir_buffer_upload`: tracked bytes go through an arena. -/
def uploadPacket (mode : SubmitMode) (slot offset : Nat) (bytes : List UInt8)
    (arena : Nat × Nat) : List NativeCommand :=
  match mode with
  | .synchronous => [.inlineWrite (.buffer slot) offset bytes]
  | .tracked =>
      [.inlineWrite (.arena arena.1) arena.2 bytes,
        .bufferCopy slot offset arena.1 arena.2 bytes.length]

/-- What other parts answer while a buffer is prepared.  `packet` is the answer for the
packet at an offset, from its preparation to its submission, and the arena range of a
tracked one. -/
structure PrepareAnswers where
  create : Except HandleError (List UInt8)
  source : Bool
  upload : Bool
  arena : Except HandleError Unit
  packet : Nat → Except HandleError (Nat × Nat)
  record : Bool

/-- The bytes of a chunk, borrowed or copied. -/
def chunkBytes (source : BufferSource) (chunk : ByteRange) : Except NativeError (List UInt8) :=
  match source.directRange chunk with
  | some bytes => .ok bytes
  | none => (source.copyRange chunk (chunk.stop - chunk.start)).mapError fun _ => invalidParameter

/-- The body of the inner loop of `prepare_ir_buffer`. -/
def uploadChunk (mode : SubmitMode) (slot : Nat) (source : BufferSource) (answers : PrepareAnswers)
    (chunk : ByteRange) : Fallible NativeState NativeError Unit := do
  let bytes ← chunkBytes source chunk
  let arena ← (answers.packet chunk.start).mapError IrSubmitError.backend
  failIf (bytes.length = 0 ∨ bytes.length % 4 ≠ 0) invalidParameter
  NativeState.submit mode (uploadPacket mode slot chunk.start bytes arena)

/-- The largest payload of a packet of at most `maxCommandSize` bytes. -/
def maxPayload (mode : SubmitMode) (maxCommandSize : Nat) : Except NativeError Nat :=
  let fixedBytes := match mode with
    | .synchronous => 48
    | .tracked => 104
  if maxCommandSize < fixedBytes ∨ (maxCommandSize - fixedBytes) / 4 * 4 = 0 then
    .error invalidParameter
  else .ok ((maxCommandSize - fixedBytes) / 4 * 4)

/-- `prepare_ir_buffer`. -/
def prepareIrBuffer (mode : SubmitMode) (maxCommandSize : Nat) (spec : IrBufferSpec)
    (source : BufferSource) (update : Option IrBufferUpdate) (answers : PrepareAnswers) :
    Fallible NativeState NativeError Unit := do
  failIf (spec.size = 0 ∨ 2 ^ 32 - 1 < spec.size.toNat ∨ source.len = 0 ∨ source.len % 4 ≠ 0 ∨
    spec.size.toNat < source.len) invalidParameter
  let buffer ← NativeState.irBuffer spec answers.create
  if buffer.uploadedRevision = some spec.revision then pure ()
  else do
    let ranges ← uploadRanges buffer.uploadedRevision spec.revision source.len update
    answers.arena.mapError IrSubmitError.backend
    let payload ← maxPayload mode maxCommandSize
    -- Until every packet succeeds, the contents are unknown.
    Fallible.update (NativeState.setUploaded spec.slot none)
    Fallible.loop (ranges.flatMap fun range =>
        chunkRanges payload range.stop (range.stop - range.start) range.start)
      (uploadChunk mode spec.slot source answers)
    Fallible.update (NativeState.setUploaded spec.slot (some spec.revision))

/-! ## Streams -/

/-- A vertex, index or storage buffer that a draw binds.  Programmable draws check the
buffer; a canonical vertex buffer was validated record by record. -/
structure BufferBinding where
  slot : Nat
  size : UInt64
  programmable : Bool

/-- The spec of a binding: `buffer_spec`, or that of `decode_draw_vertices`. -/
def BufferBinding.spec (plan : BufferOnlyPlan) (shadows : List BufferShadow)
    (binding : BufferBinding) : Except NativeError IrBufferSpec := do
  failIf (2 ^ 32 - 1 < binding.size.toNat) .unsupported
  failIf (binding.programmable = true ∧ (plan.length shadows binding.slot = 0 ∨
    plan.length shadows binding.slot % 4 ≠ 0)) .unsupported
  let revision ← PendingBuffers.revision ⟨plan, []⟩ shadows binding.slot
  pure ⟨binding.slot, binding.size, revision⟩

/-- `ExecutionEvent`: a texture upload or copy, or a pass with the buffers that its draws
bind.  A pass is one packet, after the uploads of its textures. -/
inductive StreamEvent (B : Type) where
  | transfer (answer : Except NativeError Unit)
  | pass (bindings : List B) (answer : Except NativeError Unit)

/-- The bindings of an event. -/
def StreamEvent.bindings {B : Type} : StreamEvent B → List B
  | transfer _ => []
  | pass bindings _ => bindings

/-- An event with the specs of its bindings. -/
def StreamEvent.lower (plan : BufferOnlyPlan) (shadows : List BufferShadow) :
    StreamEvent BufferBinding → Except NativeError (StreamEvent IrBufferSpec)
  | transfer answer => .ok (.transfer answer)
  | pass bindings answer => do
      let specs ← bindings.mapM (BufferBinding.spec plan shadows)
      pure (.pass specs answer)

/-- A stream of writes, copies and draws.  Its writes and copies come before its first
pass, because the planner refuses any others. -/
structure BufferStream where
  ops : List (BufferOp × (PlanSite → Bool))
  events : List (StreamEvent BufferBinding)
  preservesContent : Bool
  validated : Except NativeError Unit
  reserved : Nat → Bool
  materialized : Except NativeError Unit
  maxCommandSize : Nat
  prepare : Nat → PrepareAnswers

/-- `ir_buffer` for every binding, which `materialize_ir_pass` does for a tracked stream
before anything is sent. -/
def materialize (mode : SubmitMode) (stream : BufferStream) (specs : List IrBufferSpec) :
    Fallible NativeState NativeError Unit :=
  match mode with
  | .synchronous => pure ()
  | .tracked => Fallible.loop specs fun spec => do
      let _ ← NativeState.irBuffer spec (stream.prepare spec.slot).create

/-- The loop of `submit_ir_with` over the bindings: each slot is prepared once. -/
def prepareBuffers (mode : SubmitMode) (shadows : List BufferShadow)
    (prepared : PreparedBufferOnlyPlan) (stream : BufferStream) :
    List IrBufferSpec → List Nat → Fallible NativeState NativeError (List Nat)
  | [], slots => pure slots
  | spec :: rest, slots => do
      failIf (MAX_BUFFERS ≤ spec.slot) (IrSubmitError.invalidVertexData : NativeError)
      if slots.contains spec.slot then prepareBuffers mode shadows prepared stream rest slots
      else do
        let answers := stream.prepare spec.slot
        let shadow ← okOr shadows[spec.slot]? (IrSubmitError.invalidVertexData : NativeError)
        let source ← (prepared.source shadow spec.slot answers.source :
          Except NativeError BufferSource)
        let upload := prepared.uploadForSlot shadow spec.slot answers.upload
        prepareIrBuffer mode stream.maxCommandSize spec source upload answers
        failIf (answers.record = false) (IrSubmitError.outOfMemory : NativeError)
        prepareBuffers mode shadows prepared stream rest (slots ++ [spec.slot])

/-- Send an event. -/
def sendEvent (mode : SubmitMode) : StreamEvent IrBufferSpec → Fallible NativeState NativeError Unit
  | .transfer answer => liftM answer
  | .pass specs answer => do
      let native ← Fallible.read
      failIf (specs.any (fun spec => !native.uploadedIrBuffer spec) = true)
        invalidParameter
      answer
      NativeState.submit mode [.draws specs]

/-- `submit_ir_with`, up to the checkpoint: the reserved plan, and the prepared slots. -/
def lowerStream (mode : SubmitMode) (shadows : List BufferShadow) (stream : BufferStream) :
    Fallible NativeState NativeError (PreparedBufferOnlyPlan × List Nat) := do
  stream.validated
  let plan ← (BufferOp.recordAll shadows stream.ops .empty : Except NativeError BufferOnlyPlan)
  let events ← (stream.events.mapM (StreamEvent.lower plan shadows) :
    Except NativeError (List (StreamEvent IrBufferSpec)))
  failIf (mode = .synchronous ∧ events.isEmpty = true ∧ stream.preservesContent = false)
    (IrSubmitError.unsupported : NativeError)
  let prepared ←
    (plan.reserve shadows stream.reserved : Except NativeError PreparedBufferOnlyPlan)
  stream.materialized
  let specs := events.flatMap StreamEvent.bindings
  materialize mode stream specs
  let slots ← prepareBuffers mode shadows prepared stream specs []
  Fallible.loop events (sendEvent mode)
  pure (prepared, slots)

/-! ## Runs -/

/-- The shadows and the physical buffers of a resource cache, and the device. -/
structure BufferWorld where
  shadows : List BufferShadow
  buffers : List (Option IrBuffer)
  device : Device
  usable : Bool

/-- What the checkpoint of a tracked stream came to.  A stream that is cut was accepted,
and only some of its packets reached the device. -/
inductive Checkpoint where
  | accepted
  | refused (error : NativeError)
  | cut (packets : Nat)

namespace BufferWorld

/-- A new cache; the device holds anything. -/
def new (memory : NativeResource → List UInt8) : BufferWorld where
  shadows := List.replicate MAX_BUFFERS .default
  buffers := List.replicate MAX_BUFFERS none
  device := ⟨memory, []⟩
  usable := true

/-- The native state at the start of a submission. -/
def native (world : BufferWorld) : NativeState :=
  ⟨world.buffers, { world.device with observed := [] }, []⟩

/-- `IrResources::snapshot`, of the buffers. -/
def snapshot (world : BufferWorld) : List (Option UInt64) :=
  world.buffers.map fun buffer => buffer.bind IrBuffer.uploadedRevision

/-- `IrResources::restore`, of the buffers. -/
def restore (snapshot : List (Option UInt64)) (buffers : List (Option IrBuffer)) :
    List (Option IrBuffer) :=
  buffers.mapIdx fun slot buffer => buffer.map fun buffer =>
    { buffer with uploadedRevision := (snapshot[slot]?).join }

/-- What an accepted stream publishes. -/
def published (world : BufferWorld) (lowered : PreparedBufferOnlyPlan × List Nat) :
    List BufferShadow :=
  clearUploads lowered.2
    (lowered.1.publish world.shadows (.ok () : Except NativeError Unit)).2

/-- `submit_ir`. -/
def submitIr (world : BufferWorld) (stream : BufferStream) : BufferWorld :=
  match lowerStream .synchronous world.shadows stream world.native with
  | (.error _, native) => { world with buffers := native.buffers, device := native.device }
  | (.ok lowered, native) =>
      { world with
        shadows := world.published lowered
        buffers := native.buffers
        device := native.device }

/-- `submit_ir_async`, of a stream with events. -/
def submitIrAsync (world : BufferWorld) (stream : BufferStream) (checkpoint : Checkpoint) :
    BufferWorld :=
  match lowerStream .tracked world.shadows stream world.native with
  | (.error _, native) =>
      { world with buffers := restore world.snapshot native.buffers, device := native.device }
  | (.ok lowered, native) =>
      match checkpoint with
      | .refused _ =>
          { world with buffers := restore world.snapshot native.buffers, device := native.device }
      | .accepted =>
          { world with
            shadows := world.published lowered
            buffers := native.buffers
            device := native.staged.foldl Device.accept native.device }
      | .cut packets =>
          { shadows := world.published lowered
            buffers := native.buffers
            device := (native.staged.take packets).foldl Device.accept native.device
            usable := false }

/-- `submit_ir_async`, of a stream of writes and copies only. -/
def submitBuffers (world : BufferWorld) (ops : List (BufferOp × (PlanSite → Bool)))
    (reserved : Nat → Bool) (acceptance : Except NativeError Unit) : BufferWorld :=
  match (BufferOp.recordAll world.shadows ops .empty : Except NativeError BufferOnlyPlan) with
  | .error _ => world
  | .ok plan =>
      match (plan.reserve world.shadows reserved : Except NativeError PreparedBufferOnlyPlan) with
      | .error _ => world
      | .ok prepared =>
          { world with shadows := (prepared.publish world.shadows acceptance).2 }

/-- `publish_compute_shadow`, on a slot. -/
def publishCompute (shadows : List BufferShadow) (result : Nat × List UInt8 × UInt64) :
    List BufferShadow :=
  shadows.modify result.1 fun shadow => shadow.replace result.2.1 result.2.2 none

/-- The revisions that `submit_compute_async` gives its buffers. -/
def computeRevisions (world : BufferWorld) (results : List (Nat × List UInt8)) :
    Option (List (Nat × List UInt8 × UInt64)) :=
  results.mapM fun result => do
    let shadow ← world.shadows[result.1]?
    let revision ← checkedAdd64 shadow.revision 1
    pure (result.1, result.2, revision)

/-- `submit_compute_async`: `executed` is whether the dispatches succeeded, and if not,
whether one of them was accepted. -/
def submitCompute (world : BufferWorld) (results : List (Nat × List UInt8))
    (executed : Except Bool Unit) : BufferWorld :=
  match world.computeRevisions results with
  | none => world
  | some results =>
      match executed with
      | .error accepted => { world with usable := !accepted }
      | .ok () => { world with shadows := results.foldl publishCompute world.shadows }

/-- `release_buffer`. -/
def releaseBuffer (world : BufferWorld) (slot : Nat) : BufferWorld where
  shadows := world.shadows.set slot .default
  buffers := world.buffers.set slot none
  device := world.device
  usable := world.usable

end BufferWorld

/-- What is done with a resource cache. -/
inductive BufferStep where
  | submitIr (stream : BufferStream)
  | submitIrAsync (stream : BufferStream) (checkpoint : Checkpoint)
  | submitBuffers (ops : List (BufferOp × (PlanSite → Bool))) (reserved : Nat → Bool)
      (acceptance : Except NativeError Unit)
  | submitCompute (results : List (Nat × List UInt8)) (executed : Except Bool Unit)
  | releaseBuffer (slot : Nat)

namespace BufferWorld

/-- The draws of earlier steps are not observed again. -/
def unobserved (world : BufferWorld) : BufferWorld :=
  { world with device := { world.device with observed := [] } }

/-- A step of a usable cache. -/
def perform (world : BufferWorld) : BufferStep → BufferWorld
  | .submitIr stream => world.submitIr stream
  | .submitIrAsync stream checkpoint => world.submitIrAsync stream checkpoint
  | .submitBuffers ops reserved acceptance => world.submitBuffers ops reserved acceptance
  | .submitCompute results executed => world.submitCompute results executed
  | .releaseBuffer slot => world.releaseBuffer slot

/-- One step; a cache that is not usable any more refuses everything.  The device keeps
the observations of the last step. -/
def step (world : BufferWorld) (step : BufferStep) : BufferWorld :=
  if world.usable = true then world.unobserved.perform step else world.unobserved

/-- Steps one after another. -/
def run (world : BufferWorld) (steps : List BufferStep) : BufferWorld := steps.foldl step world

end BufferWorld

end Sgfx.Virgl
