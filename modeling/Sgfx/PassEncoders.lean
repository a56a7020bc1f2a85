import Sgfx.CommandEncoder

/-!
# Render and compute pass encoders

A pass encoder borrows the command encoder and caches the state it has recorded,
so that setting a state twice records one command.  Here it holds the borrowed
encoder as a field, and recording a command zooms into that field.

Draws come in two families.  A fixed-function draw checks its vertex buffer, index
buffer and sampled texture one by one; a programmable draw checks its vertex and
index ranges and leaves the bound groups to `validateGroups`.  Both add to the
resources the pass has used, which later storage writes must avoid.

## Main Definitions

* `RenderPassEncoder`, `ComputePassEncoder` and their recording methods
* `CommandEncoder.beginRenderPass`, `CommandEncoder.beginComputePass`
-/

namespace Sgfx

open Fallible CommandEncoder

/-- Encoder for commands within one active render pass.  `colorTargets` and
`colorFormats` are the occupied entries of the source's fixed arrays, which fill
from the front. -/
structure RenderPassEncoder where
  encoder : CommandEncoder
  target : TextureId
  targetFormat : TextureFormat
  colorTargets : List TextureId
  colorFormats : List TextureFormat
  depthReadOnly : Bool
  depthFormat : Option TextureFormat
  area : PixelRect
  pipeline : Option RenderPipelineId
  programmablePipeline : Option ProgrammableRenderPipelineId
  bindGroups : Vector (Option BindGroupId) MAX_BIND_GROUPS
  depthTarget : Option TextureId
  usedResources : List PendingWrite
  vertexBuffers : Vector (Option (BufferId × UInt64)) MAX_VERTEX_BUFFERS
  indexBuffer : Option (BufferId × UInt64 × IndexFormat)
  texture : Option TextureId
  sampler : Option SamplerId
  uniforms : Option DrawUniforms
  scissor : Option (Option PixelRect)
  viewport : Option Viewport

/-- Encoder for programmable dispatch commands in one active compute pass. -/
structure ComputePassEncoder where
  encoder : CommandEncoder
  pipeline : Option ComputePipelineId
  bindGroups : Vector (Option BindGroupId) MAX_BIND_GROUPS

/-! ## Beginning passes -/

namespace CommandEncoder

/-- `begin_render_pass`. -/
def beginRenderPass (T : ResourceTable) (alloc : Allocator) (desc : RenderPassDesc) :
    Fallible CommandEncoder Error RenderPassEncoder := do
  let e ← read
  liftM e.ensureOutsidePass
  let targetDesc ← liftM (T.texture desc.target)
  liftM (requireTextureUsage targetDesc.usage .RENDER_ATTACHMENT)
  liftM (failIf (desc.area.isWithin targetDesc.extent = false) Error.outOfBounds)
  let depthDesc ← liftM (desc.depth.mapM fun depth => T.texture depth.target)
  liftM (forEach desc.colorAttachments fun attachment =>
    checkTextureMipAccess T e attachment.target 0 .renderAttachment)
  let colorDescs ← liftM (desc.colorAttachments.mapM fun attachment =>
    T.texture attachment.target)
  liftM (forEach desc.depth.toList fun depth =>
    checkTextureMipAccess T e depth.target 0
      (if depth.readOnly then .sampled else .renderAttachment))
  liftM e.reservePassBegin
  push alloc (.beginRenderPass desc)
  update fun e => { e with passOpen := true }
  let e ← read
  pure
    { encoder := e
      target := desc.target
      targetFormat := targetDesc.format
      colorTargets := desc.colorAttachments.map ColorAttachment.target
      colorFormats := colorDescs.map TextureDesc.format
      depthReadOnly := desc.depth.any DepthAttachment.readOnly
      depthFormat := depthDesc.map TextureDesc.format
      area := desc.area
      pipeline := none
      programmablePipeline := none
      bindGroups := Vector.replicate _ none
      depthTarget := desc.depth.map DepthAttachment.target
      usedResources := []
      vertexBuffers := Vector.replicate _ none
      indexBuffer := none
      texture := none
      sampler := none
      uniforms := none
      scissor := none
      viewport := none }

/-- `begin_compute_pass`. -/
def beginComputePass (alloc : Allocator) :
    Fallible CommandEncoder Error ComputePassEncoder := do
  let e ← read
  liftM e.ensureOutsidePass
  liftM e.reservePassBegin
  push alloc .beginComputePass
  update fun e => { e with passOpen := true }
  let e ← read
  pure { encoder := e, pipeline := none, bindGroups := Vector.replicate _ none }

end CommandEncoder

/-! ## Render passes -/

namespace RenderPassEncoder

/-- Run a computation on the borrowed encoder. -/
def onEncoder {α : Type} (m : Fallible CommandEncoder Error α) :
    Fallible RenderPassEncoder Error α :=
  zoom RenderPassEncoder.encoder (fun p e => { p with encoder := e }) m

/-- The tail every state setting shares: a cached setting is not recorded again;
any other is recorded and then cached. -/
def setState (alloc : Allocator) (cached : RenderPassEncoder → Bool) (command : Command)
    (store : RenderPassEncoder → RenderPassEncoder) :
    Fallible RenderPassEncoder Error Unit := do
  let p ← read
  if cached p then
    pure ()
  else
    onEncoder (push alloc command)
    update store

/-- `set_pipeline`. -/
def setPipeline (T : ResourceTable) (alloc : Allocator) (pipeline : RenderPipelineId) :
    Fallible RenderPassEncoder Error Unit := do
  let p ← read
  let desc ← liftM (T.renderPipeline pipeline)
  liftM (failIf (1 < p.colorTargets.length ∨
      (p.depthReadOnly = true ∧ desc.depth.any DepthState.writeEnabled = true) ∨
      desc.targetFormat ≠ p.targetFormat ∨
      desc.depth.any (fun depth => some depth.format != p.depthFormat) = true)
    Error.pipelineTargetMismatch)
  setState alloc (fun p => p.pipeline == some pipeline) (.setPipeline pipeline)
    fun p => { p with pipeline := some pipeline, programmablePipeline := none }

/-- The checks both vertex-buffer settings make. -/
def checkVertexBuffer (T : ResourceTable) (buffer : BufferId) (offset : UInt64) :
    Except Error Unit := do
  let desc ← T.buffer buffer
  requireBufferUsage desc.usage .VERTEX
  failIf (desc.size < offset) .outOfBounds

/-- `set_vertex_buffer`. -/
def setVertexBuffer (T : ResourceTable) (alloc : Allocator) (buffer : BufferId)
    (offset : UInt64) : Fallible RenderPassEncoder Error Unit := do
  liftM (checkVertexBuffer T buffer offset)
  setState alloc (fun p => p.vertexBuffers[0] == some (buffer, offset))
    (.setVertexBuffer buffer offset)
    fun p => { p with vertexBuffers := p.vertexBuffers.setIfInBounds 0 (some (buffer, offset)) }

/-- `set_vertex_buffer_slot`; slot zero is shared with `set_vertex_buffer`. -/
def setVertexBufferSlot (T : ResourceTable) (alloc : Allocator) (slot : UInt32)
    (buffer : BufferId) (offset : UInt64) : Fallible RenderPassEncoder Error Unit := do
  liftM (failIf (MAX_VERTEX_BUFFERS ≤ slot.toNat) Error.outOfBounds)
  if slot = 0 then
    setVertexBuffer T alloc buffer offset
  else
    liftM (checkVertexBuffer T buffer offset)
    setState alloc (fun p => p.vertexBuffers[slot.toNat]? == some (some (buffer, offset)))
      (.setVertexBufferSlot slot buffer offset)
      fun p => { p with
        vertexBuffers := p.vertexBuffers.setIfInBounds slot.toNat (some (buffer, offset)) }

/-- `set_index_buffer`. -/
def setIndexBuffer (T : ResourceTable) (alloc : Allocator) (buffer : BufferId)
    (offset : UInt64) (format : IndexFormat) : Fallible RenderPassEncoder Error Unit := do
  let desc ← liftM (T.buffer buffer)
  liftM (requireBufferUsage desc.usage .INDEX)
  liftM (failIf (desc.size < offset) Error.outOfBounds)
  liftM (failIf (offset % format.byteSize ≠ 0) Error.invalidValue)
  setState alloc (fun p => p.indexBuffer == some (buffer, offset, format))
    (.setIndexBuffer buffer offset format)
    fun p => { p with indexBuffer := some (buffer, offset, format) }

/-- `set_texture`. -/
def setTexture (T : ResourceTable) (alloc : Allocator) (texture : TextureId) :
    Fallible RenderPassEncoder Error Unit := do
  let p ← read
  let desc ← liftM (T.texture texture)
  liftM (requireTextureUsage desc.usage .SAMPLED)
  liftM (failIf (desc.arrayLayerCount ≠ 1 ∨ desc.format = .depth32Float)
    Error.bindingLayoutMismatch)
  let same ← liftM (T.sameTexture texture p.target)
  liftM (failIf (same = true) Error.attachmentFeedback)
  setState alloc (fun p => p.texture == some texture) (.setTexture texture)
    fun p => { p with texture := some texture }

/-- `set_sampler`. -/
def setSampler (T : ResourceTable) (alloc : Allocator) (sampler : SamplerId) :
    Fallible RenderPassEncoder Error Unit := do
  let desc ← liftM (T.sampler sampler)
  liftM (failIf (desc.compare.isSome = true) Error.bindingLayoutMismatch)
  setState alloc (fun p => p.sampler == some sampler) (.setSampler sampler)
    fun p => { p with sampler := some sampler }

/-- `set_draw_index`, which is never cached. -/
def setDrawIndex (alloc : Allocator) (index : UInt32) : Fallible RenderPassEncoder Error Unit :=
  onEncoder (push alloc (.setDrawIndex index))

/-- `set_uniforms`; the values are compared by bits, which is equality here. -/
def setUniforms (alloc : Allocator) (uniforms : DrawUniforms) :
    Fallible RenderPassEncoder Error Unit :=
  setState alloc (fun p => p.uniforms == some uniforms) (.setUniforms uniforms)
    fun p => { p with uniforms := some uniforms }

/-- Whether a scissor leaves the render area. -/
def scissorOutside (area scissor : PixelRect) : Bool :=
  decide (scissor.x < area.x) || decide (scissor.y < area.y) ||
    decide (area.x + area.width < scissor.x + scissor.width) ||
    decide (area.y + area.height < scissor.y + scissor.height)

/-- `set_scissor`. -/
def setScissor (alloc : Allocator) (scissor : Option PixelRect) :
    Fallible RenderPassEncoder Error Unit := do
  let p ← read
  liftM (failIf (scissor.any (scissorOutside p.area) = true) Error.outOfBounds)
  setState alloc (fun p => p.scissor == some scissor) (.setScissor scissor)
    fun p => { p with scissor := some scissor }

/-- `set_viewport`; the values are compared by bits, which is equality here. -/
def setViewport (T : ResourceTable) (alloc : Allocator) (viewport : Viewport) :
    Fallible RenderPassEncoder Error Unit := do
  let p ← read
  let target ← liftM (T.texture p.target)
  liftM (failIf (viewport.isWithin target.extent = false) Error.outOfBounds)
  setState alloc (fun p => p.viewport == some viewport) (.setViewport viewport)
    fun p => { p with viewport := some viewport }

/-- `set_push_constants`, which is never cached. -/
def setPushConstants (T : ResourceTable) (alloc : Allocator) (stages : ShaderStages)
    (offset : UInt32) (data : ByteSlice) : Fallible RenderPassEncoder Error Unit := do
  let p ← read
  let pipeline ← liftM (okOr p.programmablePipeline Error.pipelineNotSet)
  let desc ← liftM (T.programmableRenderPipelineShared pipeline)
  liftM (desc.layout.validatePushConstants stages offset data)
  onEncoder (push alloc (.setPushConstants stages offset data))

/-- `set_programmable_pipeline`. -/
def setProgrammablePipeline (T : ResourceTable) (alloc : Allocator)
    (pipeline : ProgrammableRenderPipelineId) : Fallible RenderPassEncoder Error Unit := do
  let p ← read
  let desc ← liftM (T.programmableRenderPipelineShared pipeline)
  liftM (failIf (desc.colorFormats ≠ p.colorFormats ∨
      (p.depthReadOnly = true ∧ desc.depth.any DepthState.writeEnabled = true) ∨
      desc.depth.any (fun depth => some depth.format != p.depthFormat) = true)
    Error.pipelineTargetMismatch)
  setState alloc (fun p => p.programmablePipeline == some pipeline)
    (.setProgrammablePipeline pipeline)
    fun p => { p with programmablePipeline := some pipeline, pipeline := none }

/-- `set_bind_group`. -/
def setBindGroup (T : ResourceTable) (alloc : Allocator) (index : UInt32)
    (bindGroup : BindGroupId) : Fallible RenderPassEncoder Error Unit := do
  liftM (failIf (MAX_BIND_GROUPS ≤ index.toNat) Error.outOfBounds)
  let _ ← liftM (T.bindGroupShared bindGroup)
  setState alloc (fun p => p.bindGroups[index.toNat]? == some (some bindGroup))
    (.setBindGroup index bindGroup)
    fun p => { p with bindGroups := p.bindGroups.setIfInBounds index.toNat (some bindGroup) }

/-! ### Fixed-function draws -/

/-- `active_sampled_texture`. -/
def activeSampledTexture (T : ResourceTable) (p : RenderPassEncoder) :
    Except Error (Option TextureId) := do
  let pipeline ← okOr p.pipeline .pipelineNotSet
  let desc ← T.renderPipeline pipeline
  pure (if desc.fragment.samples then p.texture else none)

/-- `validate_draw`. -/
def validateDraw (T : ResourceTable) (p : RenderPassEncoder) (count : UInt32) :
    Except Error Unit := do
  let pipeline ← okOr p.pipeline .pipelineNotSet
  let desc ← T.renderPipeline pipeline
  failIf (desc.topology.acceptsCount count = false) .invalidValue
  let _ ← okOr p.uniforms .uniformsNotSet
  let sampled ← p.activeSampledTexture T
  forEach sampled.toList fun texture => checkTextureAccess T p.encoder texture .sampled
  failIf (desc.fragment.samples = true ∧ (p.texture.isNone = true ∨ p.sampler.isNone = true))
    .textureBindingNotSet

/-- The tail of a fixed-function draw: record it, and count its resources as
accessed and used. -/
def recordFixed (alloc : Allocator) (command : Command) (keys : List PendingWrite) :
    Fallible RenderPassEncoder Error Unit := do
  liftM (tryReserve alloc .usedResources)
  onEncoder (push alloc command)
  update fun p => { p with
    encoder := p.encoder.consumeAccesses keys
    usedResources := p.usedResources ++ keys }

/-- The fixed-function branch of `draw`. -/
def drawFixed (T : ResourceTable) (alloc : Allocator) (vertexCount firstVertex : UInt32) :
    Fallible RenderPassEncoder Error Unit := do
  let p ← read
  liftM (p.validateDraw T vertexCount)
  let sampled ← liftM (p.activeSampledTexture T)
  let pipeline ← liftM (okOr p.pipeline Error.pipelineNotSet)
  let pipelineDesc ← liftM (T.renderPipeline pipeline)
  let stride := pipelineDesc.vertexBuffer.stride.toUInt64
  let vertex ← liftM (okOr p.vertexBuffers[0] Error.vertexBufferNotSet)
  let desc ← liftM (T.buffer vertex.1)
  liftM (p.encoder.checkBufferAccess vertex.1 .vertex)
  liftM (failIf (vertex.2 % stride ≠ 0) Error.invalidValue)
  let vertices ← liftM (okOr (checkedAdd64 firstVertex.toUInt64 vertexCount.toUInt64)
    Error.overflow)
  let bytes ← liftM (okOr (checkedMul64 vertices stride) Error.overflow)
  liftM (validateByteRange vertex.2 bytes desc.size)
  recordFixed alloc (.draw vertexCount firstVertex)
    (.buffer vertex.1 :: sampled.toList.map .texture)

/-- The fixed-function branch of `draw_indexed`. -/
def drawIndexedFixed (T : ResourceTable) (alloc : Allocator) (indexCount firstIndex : UInt32)
    (baseVertex : Int32) : Fallible RenderPassEncoder Error Unit := do
  let p ← read
  liftM (p.validateDraw T indexCount)
  let sampled ← liftM (p.activeSampledTexture T)
  let pipeline ← liftM (okOr p.pipeline Error.pipelineNotSet)
  let pipelineDesc ← liftM (T.renderPipeline pipeline)
  let stride := pipelineDesc.vertexBuffer.stride.toUInt64
  let vertex ← liftM (okOr p.vertexBuffers[0] Error.vertexBufferNotSet)
  let vertexDesc ← liftM (T.buffer vertex.1)
  liftM (p.encoder.checkBufferAccess vertex.1 .vertex)
  liftM (failIf (vertex.2 % stride ≠ 0) Error.invalidValue)
  liftM (validateByteRange vertex.2 stride vertexDesc.size)
  let index ← liftM (okOr p.indexBuffer Error.indexBufferNotSet)
  let desc ← liftM (T.buffer index.1)
  liftM (p.encoder.checkBufferAccess index.1 .index)
  let indices ← liftM (okOr (checkedAdd64 firstIndex.toUInt64 indexCount.toUInt64)
    Error.overflow)
  let bytes ← liftM (okOr (checkedMul64 indices index.2.2.byteSize) Error.overflow)
  liftM (validateByteRange index.2.1 bytes desc.size)
  recordFixed alloc (.drawIndexed indexCount firstIndex baseVertex)
    (.buffer index.1 :: .buffer vertex.1 :: sampled.toList.map .texture)

/-! ### Programmable draws -/

/-- The vertex slots of a programmable pipeline. -/
def boundVertices (p : RenderPassEncoder) (desc : ProgrammableRenderPipelineDesc) :
    List (Option (BufferId × UInt64)) :=
  p.vertexBuffers.toList.take desc.vertexBuffers.length

/-- The attachments shaders must not access: colours, and depth unless
read-only. -/
def attachments (p : RenderPassEncoder) : List TextureId :=
  p.colorTargets ++ (if p.depthReadOnly then [] else p.depthTarget.toList)

/-- `programmable_writes`. -/
def programmableWrites (T : ResourceTable) (alloc : Allocator) (p : RenderPassEncoder)
    (desc : ProgrammableRenderPipelineDesc) (indexed : Bool) : Except Error GroupAccesses :=
  validateGroups T alloc p.encoder desc.layout p.bindGroups p.attachments
    (p.boundVertices desc) (if indexed then p.indexBuffer.map Prod.fst else none)

/-- `validate_cumulative_accesses`: no write aliases a resource the pass used. -/
def validateCumulativeAccesses (alloc : Allocator) (p : RenderPassEncoder)
    (accesses : GroupAccesses) : Except Error Unit := do
  failIf (accesses.writes.any (fun resource => p.usedResources.any resource.aliases) = true)
    .resourceAccessConflict
  tryReserve alloc .usedResources

/-- `validate_programmable_count`. -/
def validateProgrammableCount (T : ResourceTable) (p : RenderPassEncoder) (count : UInt32) :
    Except Error ProgrammableRenderPipelineDesc := do
  let pipeline ← okOr p.programmablePipeline .pipelineNotSet
  let desc ← T.programmableRenderPipelineShared pipeline
  failIf (desc.topology.acceptsCount count = false) .invalidValue
  pure desc

/-- One vertex slot of a programmable draw: bound, synchronised, aligned, and
long enough for its last element; `lastVertex` is the last vertex it steps to. -/
def checkVertexSlot (T : ResourceTable) (p : RenderPassEncoder)
    (lastVertex instances firstInstance : UInt32) (slot : VertexBufferLayout × Nat) :
    Except Error Unit := do
  let vertex ← okOr p.vertexBuffers[slot.2]?.join .vertexBufferNotSet
  let desc ← T.buffer vertex.1
  p.encoder.checkBufferAccess vertex.1 .vertex
  failIf (vertex.2 % 4 ≠ 0) .invalidValue
  let last ← match slot.1.stepMode with
    | .vertex => pure lastVertex
    | .perInstance =>
        okOr (checkedAdd32 firstInstance ((instances - 1) / slot.1.instanceDivisor)) .overflow
  let bytes ← okOr ((checkedMul64 last.toUInt64 slot.1.stride.toUInt64).bind fun start =>
    checkedAdd64 start slot.1.attributeEnd) .overflow
  validateByteRange vertex.2 bytes desc.size

/-- The tail of a programmable draw: record it with its writes, and count its
resources as used. -/
def recordProgrammable (alloc : Allocator) (command : Command) (accesses : GroupAccesses) :
    Fallible RenderPassEncoder Error Unit := do
  onEncoder (recordWithWrites alloc command accesses)
  update fun p => { p with usedResources := p.usedResources ++ accesses.used }

/-- `draw_programmable`. -/
def drawProgrammable (T : ResourceTable) (alloc : Allocator)
    (count first instances firstInstance : UInt32) :
    Fallible RenderPassEncoder Error Unit := do
  let p ← read
  liftM (failIf (instances = 0) Error.invalidValue)
  let _ ← liftM (okOr (checkedAdd32 firstInstance instances) Error.overflow)
  let desc ← liftM (p.validateProgrammableCount T count)
  let finish ← liftM (okOr (checkedAdd32 first count) Error.overflow)
  liftM (failIf (finish = 0) Error.overflow)
  liftM (forEach desc.vertexBuffers.zipIdx
    (p.checkVertexSlot T (finish - 1) instances firstInstance))
  let accesses ← liftM (p.programmableWrites T alloc desc false)
  liftM (p.validateCumulativeAccesses alloc accesses)
  recordProgrammable alloc
    (if instances = 1 ∧ firstInstance = 0 then .draw count first
      else .drawInstanced count first instances firstInstance)
    accesses

/-- `draw_indexed_programmable`; indices are opaque, so a vertex slot is checked
for its first vertex only. -/
def drawIndexedProgrammable (T : ResourceTable) (alloc : Allocator) (count first : UInt32)
    (baseVertex : Int32) (instances firstInstance : UInt32) :
    Fallible RenderPassEncoder Error Unit := do
  let p ← read
  liftM (failIf (instances = 0) Error.invalidValue)
  let _ ← liftM (okOr (checkedAdd32 firstInstance instances) Error.overflow)
  let desc ← liftM (p.validateProgrammableCount T count)
  let _ ← liftM (okOr (checkedAdd32 first count) Error.overflow)
  liftM (forEach desc.vertexBuffers.zipIdx (p.checkVertexSlot T 0 instances firstInstance))
  let index ← liftM (okOr p.indexBuffer Error.indexBufferNotSet)
  let bufferDesc ← liftM (T.buffer index.1)
  liftM (p.encoder.checkBufferAccess index.1 .index)
  let bytes ← liftM (okOr (checkedMul64 (first.toUInt64 + count.toUInt64) index.2.2.byteSize)
    Error.overflow)
  liftM (validateByteRange index.2.1 bytes bufferDesc.size)
  let accesses ← liftM (p.programmableWrites T alloc desc true)
  liftM (p.validateCumulativeAccesses alloc accesses)
  recordProgrammable alloc
    (if instances = 1 ∧ firstInstance = 0 then .drawIndexed count first baseVertex
      else .drawIndexedInstanced count first baseVertex instances firstInstance)
    accesses

/-- `draw`. -/
def draw (T : ResourceTable) (alloc : Allocator) (vertexCount firstVertex : UInt32) :
    Fallible RenderPassEncoder Error Unit := do
  let p ← read
  if p.programmablePipeline.isSome then
    drawProgrammable T alloc vertexCount firstVertex 1 0
  else
    drawFixed T alloc vertexCount firstVertex

/-- `draw_indexed`. -/
def drawIndexed (T : ResourceTable) (alloc : Allocator) (indexCount firstIndex : UInt32)
    (baseVertex : Int32) : Fallible RenderPassEncoder Error Unit := do
  let p ← read
  if p.programmablePipeline.isSome then
    drawIndexedProgrammable T alloc indexCount firstIndex baseVertex 1 0
  else
    drawIndexedFixed T alloc indexCount firstIndex baseVertex

/-- `draw_instanced`. -/
def drawInstanced (T : ResourceTable) (alloc : Allocator)
    (count first instances firstInstance : UInt32) : Fallible RenderPassEncoder Error Unit :=
  drawProgrammable T alloc count first instances firstInstance

/-- `draw_indexed_instanced`. -/
def drawIndexedInstanced (T : ResourceTable) (alloc : Allocator) (count first : UInt32)
    (baseVertex : Int32) (instances firstInstance : UInt32) :
    Fallible RenderPassEncoder Error Unit :=
  drawIndexedProgrammable T alloc count first baseVertex instances firstInstance

end RenderPassEncoder

/-! ## Compute passes -/

namespace ComputePassEncoder

/-- Run a computation on the borrowed encoder. -/
def onEncoder {α : Type} (m : Fallible CommandEncoder Error α) :
    Fallible ComputePassEncoder Error α :=
  zoom ComputePassEncoder.encoder (fun p e => { p with encoder := e }) m

/-- The tail both state settings share, as in render passes. -/
def setState (alloc : Allocator) (cached : ComputePassEncoder → Bool) (command : Command)
    (store : ComputePassEncoder → ComputePassEncoder) :
    Fallible ComputePassEncoder Error Unit := do
  let p ← read
  if cached p then
    pure ()
  else
    onEncoder (push alloc command)
    update store

/-- `set_push_constants`. -/
def setPushConstants (T : ResourceTable) (alloc : Allocator) (stages : ShaderStages)
    (offset : UInt32) (data : ByteSlice) : Fallible ComputePassEncoder Error Unit := do
  let p ← read
  let pipeline ← liftM (okOr p.pipeline Error.pipelineNotSet)
  let desc ← liftM (T.computePipeline pipeline)
  liftM (desc.layout.validatePushConstants stages offset data)
  onEncoder (push alloc (.setPushConstants stages offset data))

/-- `set_pipeline`. -/
def setPipeline (T : ResourceTable) (alloc : Allocator) (pipeline : ComputePipelineId) :
    Fallible ComputePassEncoder Error Unit := do
  let _ ← liftM (T.computePipeline pipeline)
  setState alloc (fun p => p.pipeline == some pipeline) (.setComputePipeline pipeline)
    fun p => { p with pipeline := some pipeline }

/-- `set_bind_group`. -/
def setBindGroup (T : ResourceTable) (alloc : Allocator) (index : UInt32)
    (bindGroup : BindGroupId) : Fallible ComputePassEncoder Error Unit := do
  liftM (failIf (MAX_BIND_GROUPS ≤ index.toNat) Error.outOfBounds)
  let _ ← liftM (T.bindGroupShared bindGroup)
  setState alloc (fun p => p.bindGroups[index.toNat]? == some (some bindGroup))
    (.setBindGroup index bindGroup)
    fun p => { p with bindGroups := p.bindGroups.setIfInBounds index.toNat (some bindGroup) }

/-- `dispatch`. -/
def dispatch (T : ResourceTable) (alloc : Allocator) (x y z : UInt32) :
    Fallible ComputePassEncoder Error Unit := do
  let p ← read
  liftM (failIf ([x, y, z].any (fun count => count == 0 || decide (65535 < count)) = true)
    Error.invalidValue)
  let pipeline ← liftM (okOr p.pipeline Error.pipelineNotSet)
  let desc ← liftM (T.computePipeline pipeline)
  let writes ← liftM (validateGroups T alloc p.encoder desc.layout p.bindGroups [] [] none)
  onEncoder (recordWithWrites alloc (.dispatch x y z) writes)

end ComputePassEncoder

end Sgfx
