import Sgfx.ResourceTable
import Sgfx.Virgl.BufferRecording

/-!
# Canonical vertex buffers

Fixed-function draws with the canonical 40-byte vertex layout read their vertices from
persistent physical storage, so their records are checked once for each revision and
not for each draw.  The proof of a check is kept in two places: the validations of the
pending stream, which every write and copy of a buffer drops, and the revisions that
accepted streams leave in the resources.

Answers that other parts of the backend give (a decoded draw state, the decoding of
inline vertices, the outcome of the packets of a stream) are arguments of the commands
here, and can be anything.

## Main Definitions

* `IrResources` — the shadows, and the revisions whose records are known to be valid
* `PendingBuffers`, with `write`, `copy`, `validateCanonical`
* `decodeDrawVertices`, `planStream`
* `IrResources.submit`, `IrResources.step` — streams, and what else touches buffers
-/

namespace Sgfx.Virgl

open Bytes

/-- `MAX_BUFFERS`. -/
def MAX_BUFFERS : Nat := 4096

/-! ## Resources -/

/-- `IrResources`, as far as buffers go. -/
structure IrResources where
  bufferShadows : List BufferShadow
  canonicalBufferRevisions : List (Option UInt64)

namespace IrResources

/-- `IrResources::new`. -/
def new : IrResources := ⟨List.replicate MAX_BUFFERS .default, List.replicate MAX_BUFFERS none⟩

/-- `canonical_buffer_revision`. -/
def canonicalBufferRevision (resources : IrResources) (slot : Nat) : Option UInt64 :=
  (resources.canonicalBufferRevisions[slot]?).join

/-- `commit_canonical_validations`. -/
def commitCanonicalValidations (resources : IrResources) (validations : List (Nat × UInt64)) :
    IrResources where
  bufferShadows := resources.bufferShadows
  canonicalBufferRevisions := validations.foldl
    (fun revisions validation => revisions.set validation.1 (some validation.2))
    resources.canonicalBufferRevisions

/-- `release_buffer`, once the physical allocation is gone. -/
def releaseBuffer (resources : IrResources) (slot : Nat) : IrResources where
  bufferShadows := resources.bufferShadows.set slot .default
  canonicalBufferRevisions := resources.canonicalBufferRevisions.set slot none

/-- `publish_compute_shadow`. -/
def publishComputeShadow (resources : IrResources) (slot : Nat) (bytes : List UInt8)
    (revision : UInt64) : IrResources where
  bufferShadows := resources.bufferShadows.modify slot fun shadow =>
    shadow.replace bytes revision none
  canonicalBufferRevisions := resources.canonicalBufferRevisions.set slot none

end IrResources

/-! ## Records -/

/-- `read_f32`. -/
def readF32 {E : Type} (bytes : List UInt8) (offset : Nat) : Except (IrSubmitError E) F32 :=
  if offset + 4 ≤ bytes.length then .ok ⟨.ofNat (leWord ((bytes.drop offset).take 4))⟩
  else .error .invalidVertexData

/-- `(0.0..=1.0).contains(&component)` by bit pattern: from zero to one, and the negative
zero. -/
def inUnitInterval (component : F32) : Bool :=
  decide (component.bits ≤ 0x3f800000) || component.bits == 0x80000000

/-- `validate_canonical_record`. -/
def validateCanonicalRecord {E : Type} (record : List UInt8) : Except (IrSubmitError E) Unit := do
  forEach [0, 4, 8, 12, 32, 36] fun offset => do
    let value ← readF32 record offset
    failIf (value.isFinite = false) .invalidVertexData
  forEach [16, 20, 24, 28] fun offset => do
    let component ← readF32 record offset
    failIf (component.isFinite = false ∨ inUnitInterval component = false) .invalidVertexData

/-! ## Pending buffers -/

/-- `PendingBuffers`, without the index bounds of programmable draws. -/
structure PendingBuffers where
  plan : BufferOnlyPlan
  canonicalValidations : List (Nat × UInt64)

/-- Whether a command may push to the validations, and clone a range. -/
structure DrawMemory where
  validations : Bool
  range : Bool

namespace PendingBuffers

variable {E : Type}

/-- `PendingBuffers::new`. -/
def new : PendingBuffers := ⟨.empty, []⟩

/-- `invalidate_canonical_validation`. -/
def invalidateCanonicalValidation (pending : PendingBuffers) (slot : Nat) : PendingBuffers :=
  { pending with canonicalValidations :=
      pending.canonicalValidations.filter fun validation => validation.1 != slot }

/-- `PendingBuffers::write`. -/
def write (pending : PendingBuffers) (table : ResourceTable) (shadows : List BufferShadow)
    (buffer : BufferId) (offset : UInt64) (data : List UInt8) (memory : PlanSite → Bool) :
    Except (IrSubmitError E) PendingBuffers := do
  let descriptor ← (table.buffer buffer).mapError IrSubmitError.invalidIr
  failIf (descriptor.usage.contains .COPY_DST = false) (.invalidIr .invalidUsage)
  let stop ← okOr (checkedAddUsize offset.toNat data.length) .invalidVertexData
  failIf (descriptor.size.toNat < stop) .invalidVertexData
  let slot := buffer.index.toNat
  let plan ← pending.plan.write shadows slot offset.toNat data memory
  pure ({ pending with plan }.invalidateCanonicalValidation slot)

/-- `PendingBuffers::copy`. -/
def copy (pending : PendingBuffers) (table : ResourceTable) (shadows : List BufferShadow)
    (source : BufferId) (sourceOffset : UInt64) (destination : BufferId)
    (destinationOffset size : UInt64) (memory : PlanSite → Bool) :
    Except (IrSubmitError E) PendingBuffers := do
  let descriptor ← (table.buffer source).mapError IrSubmitError.invalidIr
  failIf (descriptor.usage.contains .COPY_SRC = false) (.invalidIr .invalidUsage)
  let stop ← okOr (checkedAdd64 sourceOffset size) (.invalidIr .overflow)
  failIf (descriptor.size < stop) (.invalidIr .outOfBounds)
  let plan ← pending.plan.copy shadows source.index.toNat sourceOffset.toNat
    destination.index.toNat destinationOffset.toNat size.toNat memory
  pure ({ pending with plan }.invalidateCanonicalValidation destination.index.toNat)

/-- `PendingBuffers::revision`. -/
def revision (pending : PendingBuffers) (shadows : List BufferShadow) (slot : Nat) :
    Except (IrSubmitError E) UInt64 :=
  match pending.plan.updateForSlot slot with
  | some update => .ok update.revision
  | none => okOr ((shadows[slot]?).map BufferShadow.revision) .invalidVertexData

/-- `canonical_needs_validation`. -/
def canonicalNeedsValidation (pending : PendingBuffers) (resources : IrResources) (slot : Nat)
    (revision : UInt64) : Bool :=
  resources.canonicalBufferRevision slot != some revision &&
    !pending.canonicalValidations.contains (slot, revision)

/-- `mark_canonical_validated`. -/
def markCanonicalValidated (pending : PendingBuffers) (slot : Nat) (revision : UInt64)
    (memory : Bool) : Except (IrSubmitError E) PendingBuffers :=
  if pending.canonicalValidations.contains (slot, revision) then .ok pending
  else if memory = false then .error .outOfMemory
  else .ok { pending with
    canonicalValidations := pending.canonicalValidations ++ [(slot, revision)] }

/-- `validate_canonical`. -/
def validateCanonical (pending : PendingBuffers) (shadows : List BufferShadow) (slot : Nat) :
    Except (IrSubmitError E) Unit := do
  let length := pending.plan.length shadows slot
  failIf (length = 0 ∨ length % 40 ≠ 0) .invalidVertexData
  forEach (List.range (length / 40)) fun i =>
    validateCanonicalRecord (pending.plan.readRange shadows slot (40 * i) 40)

end PendingBuffers

/-! ## Draws -/

/-- `usize::checked_mul`. -/
def checkedMulUsize (a b : Nat) : Option Nat := if a * b < 2 ^ 64 then some (a * b) else none

/-- `PipelineInfo`, without the fixed-function state. -/
structure PipelineInfo where
  fragment : FragmentProgram
  stride : UInt32
  position : VertexAttribute
  secondary : Option VertexAttribute
  tertiary : Option VertexAttribute

/-- `is_canonical_persistent_layout`. -/
def isCanonicalPersistentLayout (info : PipelineInfo) : Bool :=
  info.stride == 40 &&
    info.position == ⟨0, .float32x4, 0⟩ &&
    info.secondary == some ⟨1, .float32x4, 16⟩ &&
    info.tertiary == some ⟨2, .float32x2, 32⟩ &&
    match info.fragment with
    | .vertexColor | .textureVertexColor _ => true
    | _ => false

/-- What `draw_state` returns of the pipeline and the vertex buffer. -/
structure DrawState where
  info : PipelineInfo
  buffer : BufferId
  offset : UInt64

/-- `IrBufferSpec`. -/
structure IrBufferSpec where
  slot : Nat
  size : UInt64
  revision : UInt64
deriving DecidableEq, Repr

/-- `IrVertexBufferBinding`. -/
structure IrVertexBufferBinding where
  buffer : IrBufferSpec
  offset : UInt32
deriving DecidableEq, Repr

/-- `DecodedVertices`. -/
inductive DecodedVertices (V : Type) where
  | inline (vertices : List V)
  | persistent (binding : IrVertexBufferBinding) (firstVertex vertexCount : Nat)

/-- `validate_canonical_vertex_range`. -/
def validateCanonicalVertexRange {E : Type} (descriptor : BufferDesc) (logicalLen : Nat)
    (vertexOffset : UInt64) (firstVertex vertexCount : UInt32) : Except (IrSubmitError E) Unit := do
  failIf (descriptor.usage.contains .VERTEX = false ∨ vertexCount = 0 ∨ vertexCount % 3 ≠ 0)
    .invalidVertexData
  let first ← okOr (checkedMulUsize firstVertex.toNat 40) .invalidVertexData
  let start ← okOr (checkedAddUsize vertexOffset.toNat first) .invalidVertexData
  let byteCount ← okOr (checkedMulUsize vertexCount.toNat 40) .invalidVertexData
  let stop ← okOr (checkedAddUsize start byteCount) .invalidVertexData
  failIf (logicalLen < stop) .invalidVertexData

/-- A non-indexed fixed-function draw, and what other parts answer for it. -/
structure DrawCall (E V : Type) where
  state : Except (IrSubmitError E) DrawState
  firstVertex : UInt32
  vertexCount : UInt32
  decode : List UInt8 → Except (IrSubmitError E) (List V)
  memory : DrawMemory

section Draw

variable {E V : Type}

/-- The arm of `decode_draw_vertices` for canonical layouts. -/
def decodePersistent (resources : IrResources) (pending : PendingBuffers) (state : DrawState)
    (descriptor : BufferDesc) (call : DrawCall E V) :
    Except (IrSubmitError E) (DecodedVertices V × PendingBuffers) := do
  let slot := state.buffer.index.toNat
  let revision ← pending.revision resources.bufferShadows slot
  let needsValidation := pending.canonicalNeedsValidation resources slot revision
  let length := pending.plan.length resources.bufferShadows slot
  validateCanonicalVertexRange descriptor length state.offset call.firstVertex call.vertexCount
  let pending ← if needsValidation then do
      pending.validateCanonical resources.bufferShadows slot
      pending.markCanonicalValidated slot revision call.memory.validations
    else pure pending
  pure (.persistent ⟨⟨slot, descriptor.size, revision⟩, state.offset.toUInt32⟩
    call.firstVertex.toNat call.vertexCount.toNat, pending)

/-- The other arm: the vertices are decoded and copied into the stream. -/
def decodeInline (resources : IrResources) (pending : PendingBuffers) (state : DrawState)
    (call : DrawCall E V) : Except (IrSubmitError E) (DecodedVertices V × PendingBuffers) := do
  let first ← okOr (checkedMulUsize call.firstVertex.toNat state.info.stride.toNat)
    .invalidVertexData
  let start ← okOr (checkedAddUsize first state.offset.toNat) .invalidVertexData
  let length ← okOr (checkedMulUsize call.vertexCount.toNat state.info.stride.toNat)
    .invalidVertexData
  let stop ← okOr (checkedAddUsize start length) .invalidVertexData
  let bytes ← pending.plan.range resources.bufferShadows state.buffer.index.toNat ⟨start, stop⟩
    call.memory.range
  let vertices ← call.decode bytes
  pure (.inline vertices, pending)

/-- `decode_draw_vertices`. -/
def decodeDrawVertices (table : ResourceTable) (resources : IrResources) (pending : PendingBuffers)
    (call : DrawCall E V) : Except (IrSubmitError E) (DecodedVertices V × PendingBuffers) := do
  let state ← call.state
  let descriptor ← (table.buffer state.buffer).mapError IrSubmitError.invalidIr
  if isCanonicalPersistentLayout state.info = true ∧ descriptor.size.toNat ≤ 2 ^ 32 - 1 ∧
      state.offset.toNat ≤ 2 ^ 32 - 1 then
    decodePersistent resources pending state descriptor call
  else decodeInline resources pending state call

end Draw

/-! ## Streams -/

/-- A command of a stream, as far as buffers go. -/
inductive StreamCommand (E V : Type) where
  | writeBuffer (buffer : BufferId) (offset : UInt64) (data : List UInt8)
      (memory : PlanSite → Bool)
  | copyBufferToBuffer (source : BufferId) (sourceOffset : UInt64) (destination : BufferId)
      (destinationOffset size : UInt64) (memory : PlanSite → Bool)
  | beginRenderPass (answer : Except (IrSubmitError E) Unit)
  | draw (call : DrawCall E V)
  | other (answer : Except (IrSubmitError E) Unit)

/-- The state of `ExecutionPlan::from_commands`, as far as buffers go. -/
structure Planner where
  pending : PendingBuffers
  seenPass : Bool

section Streams

variable {E V : Type}

/-- One turn of the loop of `ExecutionPlan::from_commands`. -/
def Planner.step (table : ResourceTable) (resources : IrResources) (planner : Planner)
    (command : StreamCommand E V) : Except (IrSubmitError E) Planner := do
  match command with
  | .writeBuffer buffer offset data memory =>
      failIf (planner.seenPass = true) .unsupported
      let pending ← planner.pending.write table resources.bufferShadows buffer offset data memory
      pure { planner with pending }
  | .copyBufferToBuffer source sourceOffset destination destinationOffset size memory =>
      failIf (planner.seenPass = true) .unsupported
      let pending ← planner.pending.copy table resources.bufferShadows source sourceOffset
        destination destinationOffset size memory
      pure { planner with pending }
  | .beginRenderPass answer =>
      answer
      pure { planner with seenPass := true }
  | .draw call =>
      let decoded ← decodeDrawVertices table resources planner.pending call
      pure { planner with pending := decoded.2 }
  | .other answer =>
      answer
      pure planner

/-- `ExecutionPlan::from_commands`. -/
def planStream (table : ResourceTable) (resources : IrResources)
    (commands : List (StreamCommand E V)) : Except (IrSubmitError E) Planner :=
  commands.foldlM (fun planner command => planner.step table resources command) ⟨.new, false⟩

/-- The buffer operation of a command. -/
def StreamCommand.bufferOp : StreamCommand E V → Option BufferOp
  | writeBuffer buffer offset data _ => some (.write buffer.index.toNat offset.toNat data)
  | copyBufferToBuffer source sourceOffset destination destinationOffset size _ =>
      some (.copy source.index.toNat sourceOffset.toNat destination.index.toNat
        destinationOffset.toNat size.toNat)
  | _ => none

/-- The delta of the buffers that a stream prepared is on the device now. -/
def clearUploads (slots : List Nat) (shadows : List BufferShadow) : List BufferShadow :=
  slots.foldl (fun shadows slot => shadows.modify slot fun shadow =>
    { shadow with upload := none }) shadows

/-- `submit_ir_with`: `outcome` is what the preparations, events and the checkpoint came
to, and `prepared` the buffers that were prepared for the draws. -/
def IrResources.submit (resources : IrResources) (table : ResourceTable)
    (commands : List (StreamCommand E V)) (memory : Nat → Bool)
    (outcome : Except (IrSubmitError E) Unit) (prepared : List Nat) : IrResources :=
  match planStream table resources commands with
  | .error _ => resources
  | .ok planner =>
      match (planner.pending.plan.reserve resources.bufferShadows memory :
          Except (IrSubmitError E) PreparedBufferOnlyPlan) with
      | .error _ => resources
      | .ok plan =>
          match plan.publish resources.bufferShadows outcome with
          | (.error _, shadows) => { resources with bufferShadows := shadows }
          | (.ok _, shadows) =>
              ({ resources with bufferShadows := clearUploads prepared shadows } :
                IrResources).commitCanonicalValidations planner.pending.canonicalValidations

/-- The fast path of `submit_ir_async` for streams of writes and copies only, which has
no draws to validate anything for. -/
def IrResources.submitBuffers (resources : IrResources)
    (ops : List (BufferOp × (PlanSite → Bool))) (memory : Nat → Bool)
    (outcome : Except (IrSubmitError E) Unit) : IrResources :=
  match (ops.foldlM (fun plan entry => entry.1.record resources.bufferShadows entry.2 plan) .empty :
      Except (IrSubmitError E) BufferOnlyPlan) with
  | .error _ => resources
  | .ok plan =>
      match (plan.reserve resources.bufferShadows memory :
          Except (IrSubmitError E) PreparedBufferOnlyPlan) with
      | .error _ => resources
      | .ok plan => { resources with bufferShadows := (plan.publish resources.bufferShadows outcome).2 }

/-- `submit_compute_async`, accepted: every buffer of the plan is replaced by what the
device computed, at the revision after its own. -/
def IrResources.submitCompute (resources : IrResources) (results : List (Nat × List UInt8)) :
    IrResources :=
  let revision := fun slot => (resources.bufferShadows[slot]?).bind fun shadow =>
    checkedAdd64 shadow.revision 1
  match results.mapM fun result => (revision result.1).map fun revision => (result, revision) with
  | none => resources
  | some published => published.foldl (fun next entry =>
      next.publishComputeShadow entry.1.1 entry.1.2 entry.2) resources

/-- What happens to the buffers of a resource cache. -/
inductive BufferEvent (E V : Type) where
  | stream (table : ResourceTable) (commands : List (StreamCommand E V)) (memory : Nat → Bool)
      (outcome : Except (IrSubmitError E) Unit) (prepared : List Nat)
  | buffers (ops : List (BufferOp × (PlanSite → Bool))) (memory : Nat → Bool)
      (outcome : Except (IrSubmitError E) Unit)
  | compute (results : List (Nat × List UInt8))
  | release (slot : Nat)

/-- One event. -/
def IrResources.step (resources : IrResources) : BufferEvent E V → IrResources
  | .stream table commands memory outcome prepared =>
      resources.submit table commands memory outcome prepared
  | .buffers ops memory outcome => resources.submitBuffers ops memory outcome
  | .compute results => resources.submitCompute results
  | .release slot => resources.releaseBuffer slot

/-- Events one after another. -/
def IrResources.run (resources : IrResources) (events : List (BufferEvent E V)) : IrResources :=
  events.foldl IrResources.step resources

end Streams

end Sgfx.Virgl
