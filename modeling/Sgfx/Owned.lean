import Sgfx.Session

/-!
# Owned recordings

A frontend keeps its commands in a list that names resources by identity and owns its upload
bytes.  Nothing is checked until the list is replayed: each command is resolved against a
resource table and given to the encoder, or to the pass encoder, that is held at that point.

The inner loops of a replay take commands from the iterator of the outer loop, so which loop is
running is the session: outside passes, in a render pass or in a compute pass.

## Main Definitions

* `Payload`, `OwnedCommand`
* `Replay.resolve` — the call that a command makes
* `validate`, `record`
-/

namespace Sgfx

/-- A `Vec<u8>`: its bytes, and where they are. -/
structure Payload where
  bytes : List UInt8
  address : UInt64
  nonNull : address ≠ 0
  length_lt : bytes.length < 2 ^ 63

namespace Payload

/-- Payloads are compared by their bytes and their places. -/
theorem eq_iff {p q : Payload} : p.bytes = q.bytes ∧ p.address = q.address ↔ p = q := by
  cases p
  cases q
  rw [Payload.mk.injEq]

instance : DecidableEq Payload := fun _ _ => decidable_of_iff (_ ∧ _) eq_iff

/-- `Vec::len`. -/
def len (p : Payload) : Nat := p.bytes.length

/-- The payload, borrowed. -/
def slice (p : Payload) : ByteSlice where
  data := p.address
  len := .ofNat p.len
  nonNull := p.nonNull
  len_le := by
    rw [len, UInt64.toNat_ofNat_of_lt' (Nat.lt_trans p.length_lt (by decide))]
    exact p.length_lt

theorem slice_len (p : Payload) : p.slice.len.toNat = p.len :=
  UInt64.toNat_ofNat_of_lt' (Nat.lt_trans p.length_lt (by decide))

end Payload

/-- `OwnedDepthAttachment`. -/
structure OwnedDepthAttachment where
  target : TextureId
  load : DepthLoadOp
  store : StoreOp
deriving DecidableEq

/-- `OwnedRenderPassDesc`. -/
structure OwnedRenderPassDesc where
  target : TextureId
  area : PixelRect
  load : LoadOp
  store : StoreOp
  depth : Option OwnedDepthAttachment
deriving DecidableEq

/-- `OwnedColorAttachment`. -/
structure OwnedColorAttachment where
  target : TextureId
  load : LoadOp
  store : StoreOp
deriving DecidableEq

/-- `OwnedRenderPassDesc::resolve`. -/
def OwnedRenderPassDesc.resolve (T : ResourceTable) (d : OwnedRenderPassDesc) :
    Except Error RenderPassDesc := do
  let desc ← RenderPassDesc.new T (← T.textureRef d.target) d.area d.load d.store
  match d.depth with
  | some depth =>
    desc.withDepthAttachment T (← T.textureRef depth.target) depth.load depth.store
  | none => pure desc

/-- `OwnedResourceBarrier`. -/
inductive OwnedResourceBarrier where
  | global
  | textureMip (texture : TextureId) (mipLevel : UInt32) (before after : TextureAccess)
  | buffer (buffer : BufferId) (before after : BufferAccess)
  | texture (texture : TextureId) (before after : TextureAccess)
deriving DecidableEq

/-- `OwnedResourceBarrier::resolve`. -/
def OwnedResourceBarrier.resolve (T : ResourceTable) :
    OwnedResourceBarrier → Except Error ResourceBarrier
  | .global => .ok .global
  | .textureMip id mipLevel before after => do
    pure (.textureMip (← T.textureRef id) mipLevel before after)
  | .buffer id before after => do pure (.buffer (← T.bufferRef id) before after)
  | .texture id before after => do pure (.texture (← T.textureRef id) before after)

/-- One unvalidated command. -/
inductive OwnedCommand where
  | writeTextureLayer (texture : TextureId) (mipLevel arrayLayer : UInt32)
      (destination : PixelRect) (bytesPerRow : UInt32) (data : Payload)
  | writeTextureMip (texture : TextureId) (mipLevel : UInt32) (destination : PixelRect)
      (bytesPerRow : UInt32) (data : Payload)
  | blitTexture (source : TextureId) (sourceMip : UInt32) (destination : TextureId)
      (destinationMip : UInt32) (filter : FilterMode)
  | blitTextureRegion (source : TextureId) (sourceMip : UInt32) (sourceRect : PixelRect)
      (destination : TextureId) (destinationMip : UInt32) (destinationRect : PixelRect)
      (filter : FilterMode) (flips : Bool × Bool)
  | writeBuffer (buffer : BufferId) (offset : UInt64) (data : Payload)
  | writeTexture (texture : TextureId) (destination : PixelRect) (bytesPerRow : UInt32)
      (data : Payload)
  | copyBufferToBuffer (source : BufferId) (sourceOffset : UInt64) (destination : BufferId)
      (destinationOffset size : UInt64)
  | copyTextureToTexture (source : TextureId) (sourceRect : PixelRect)
      (destination : TextureId) (destinationRect : PixelRect)
  | resourceBarrier (barrier : OwnedResourceBarrier)
  | beginRenderPass (desc : OwnedRenderPassDesc)
  | beginRenderPassWithAttachments (desc : OwnedRenderPassDesc)
      (colors : List OwnedColorAttachment) (readOnlyDepth : Bool)
  | endRenderPass
  | setPipeline (pipeline : RenderPipelineId)
  | setProgrammablePipeline (pipeline : ProgrammableRenderPipelineId)
  | setBindGroup (index : UInt32) (bindGroup : BindGroupId)
  | setVertexBuffer (buffer : BufferId) (offset : UInt64)
  | setVertexBufferSlot (slot : UInt32) (buffer : BufferId) (offset : UInt64)
  | setIndexBuffer (buffer : BufferId) (offset : UInt64) (format : IndexFormat)
  | setTexture (texture : TextureId)
  | setSampler (sampler : SamplerId)
  | setUniforms (uniforms : DrawUniforms)
  | setDrawIndex (index : UInt32)
  | setScissor (scissor : Option PixelRect)
  | setViewport (viewport : Viewport)
  | setPushConstants (stages : ShaderStages) (offset : UInt32) (data : Payload)
  | draw (vertexCount firstVertex : UInt32)
  | drawInstanced (vertexCount firstVertex instanceCount firstInstance : UInt32)
  | drawIndexedInstanced (indexCount firstIndex : UInt32) (baseVertex : Int32)
      (instanceCount firstInstance : UInt32)
  | drawIndexed (indexCount firstIndex : UInt32) (baseVertex : Int32)
  | beginComputePass
  | endComputePass
  | setComputePipeline (pipeline : ComputePipelineId)
  | dispatch (x y z : UInt32)
deriving DecidableEq

/-! ## Replay -/

namespace Replay

section Resolve

variable (T : ResourceTable)

/-- The upload of a payload, as the encoder takes it. -/
def writeTexture (texture : TextureId) (mipLevel arrayLayer : UInt32) (destination : PixelRect)
    (bytesPerRow : UInt32) (data : Payload) : Except Error Call := do
  let reference ← T.textureRef texture
  let write ← TextureWrite.new destination bytesPerRow data.slice mipLevel arrayLayer
  pure (.encoder (.writeTexture reference write))

/-- The descriptor of a pass with additional attachments. -/
def passDesc (desc : OwnedRenderPassDesc) (colors : List OwnedColorAttachment)
    (readOnlyDepth : Bool) : Except Error RenderPassDesc := do
  let resolved ← desc.resolve T
  let resolved ← colors.foldlM (fun resolved color => do
    resolved.withColorAttachment T (← T.textureRef color.target) color.load color.store) resolved
  if readOnlyDepth then resolved.withReadOnlyDepth else pure resolved

/-- The call that a command makes outside passes. -/
def outside : OwnedCommand → Except Error Call
  | .writeTextureLayer texture mipLevel arrayLayer destination bytesPerRow data =>
    writeTexture T texture mipLevel arrayLayer destination bytesPerRow data
  | .writeTextureMip texture mipLevel destination bytesPerRow data =>
    writeTexture T texture mipLevel 0 destination bytesPerRow data
  | .blitTexture source sourceMip destination destinationMip filter => do
    pure (.encoder (.blitTexture (← T.textureRef source) sourceMip (← T.textureRef destination)
      destinationMip filter))
  | .blitTextureRegion source sourceMip sourceRect destination destinationMip destinationRect
      filter flips => do
    pure (.encoder (.blitTextureRegionFlipped (← T.textureRef source) sourceMip sourceRect
      (← T.textureRef destination) destinationMip destinationRect filter flips))
  | .writeBuffer buffer offset data => do
    pure (.encoder (.writeBuffer (← T.bufferRef buffer) offset data.slice))
  | .writeTexture texture destination bytesPerRow data =>
    writeTexture T texture 0 0 destination bytesPerRow data
  | .copyBufferToBuffer source sourceOffset destination destinationOffset size => do
    pure (.encoder (.copyBufferToBuffer (← T.bufferRef source) sourceOffset
      (← T.bufferRef destination) destinationOffset size))
  | .copyTextureToTexture source sourceRect destination destinationRect => do
    pure (.encoder (.copyTextureToTexture (← T.textureRef source) sourceRect
      (← T.textureRef destination) destinationRect))
  | .resourceBarrier barrier => do
    pure (.encoder (.resourceBarrier (← barrier.resolve T)))
  | .beginRenderPass desc => do pure (.beginRenderPass (← desc.resolve T))
  | .beginRenderPassWithAttachments desc colors readOnlyDepth => do
    pure (.beginRenderPass (← passDesc T desc colors readOnlyDepth))
  | .beginComputePass => .ok .beginComputePass
  | _ => .error .invalidDescriptor

/-- The call that a command makes in a render pass. -/
def inRenderPass : OwnedCommand → Except Error Call
  | .endRenderPass => .ok .endPass
  | .setPipeline pipeline => do pure (.render (.setPipeline (← T.renderPipelineRef pipeline)))
  | .setProgrammablePipeline pipeline => do
    pure (.render (.setProgrammablePipeline (← T.ref pipeline)))
  | .setBindGroup index bindGroup => do
    pure (.render (.setBindGroup index (← T.ref bindGroup)))
  | .setVertexBuffer buffer offset => do
    pure (.render (.setVertexBuffer (← T.bufferRef buffer) offset))
  | .setVertexBufferSlot slot buffer offset => do
    pure (.render (.setVertexBufferSlot slot (← T.bufferRef buffer) offset))
  | .setIndexBuffer buffer offset format => do
    pure (.render (.setIndexBuffer (← T.bufferRef buffer) offset format))
  | .setTexture texture => do pure (.render (.setTexture (← T.textureRef texture)))
  | .setSampler sampler => do pure (.render (.setSampler (← T.samplerRef sampler)))
  | .setDrawIndex index => .ok (.render (.setDrawIndex index))
  | .setUniforms uniforms => .ok (.render (.setUniforms uniforms))
  | .setScissor scissor => .ok (.render (.setScissor scissor))
  | .setViewport viewport => .ok (.render (.setViewport viewport))
  | .setPushConstants stages offset data =>
    .ok (.render (.setPushConstants stages offset data.slice))
  | .draw vertexCount firstVertex => .ok (.render (.draw vertexCount firstVertex))
  | .drawIndexed indexCount firstIndex baseVertex =>
    .ok (.render (.drawIndexed indexCount firstIndex baseVertex))
  | .drawInstanced vertexCount firstVertex instanceCount firstInstance =>
    .ok (.render (.drawInstanced vertexCount firstVertex instanceCount firstInstance))
  | .drawIndexedInstanced indexCount firstIndex baseVertex instanceCount firstInstance =>
    .ok (.render (.drawIndexedInstanced indexCount firstIndex baseVertex instanceCount
      firstInstance))
  | _ => .error .invalidDescriptor

/-- The call that a command makes in a compute pass. -/
def inComputePass : OwnedCommand → Except Error Call
  | .endComputePass => .ok .endPass
  | .setComputePipeline pipeline => do pure (.compute (.setPipeline (← T.ref pipeline)))
  | .setBindGroup index bindGroup => do
    pure (.compute (.setBindGroup index (← T.ref bindGroup)))
  | .dispatch x y z => .ok (.compute (.dispatch x y z))
  | .setPushConstants stages offset data =>
    .ok (.compute (.setPushConstants stages offset data.slice))
  | _ => .error .invalidDescriptor

/-- The call that a command makes. -/
def resolve : Session → OwnedCommand → Except Error Call
  | .idle _ => outside T
  | .render _ => inRenderPass T
  | .compute _ => inComputePass T

end Resolve

/-- One command of a replay. -/
def step (T : ResourceTable) (alloc : Allocator) (s : Session) (c : OwnedCommand) :
    Except Error Session := do
  let call ← resolve T s c
  let _ ← (s.call T alloc call).1
  pure (s.call T alloc call).2

/-- The end of the commands: inside a pass, its loop did not see the end of it; outside, the
encoder is finished. -/
def finish : Session → Except Error CommandEncoder
  | .idle e => if e.passOpen then .error .renderPassStillActive else .ok e
  | .render _ | .compute _ => .error .invalidDescriptor

/-- `record_with`. -/
def recordWith (T : ResourceTable) (alloc : Allocator) (e : CommandEncoder)
    (commands : List OwnedCommand) : Except Error (List Command) := do
  let s ← commands.foldlM (step T alloc) (.idle e)
  let e ← finish s
  pure e.commands

end Replay

/-- `OwnedCommandBuffer::record`. -/
def record (T : ResourceTable) (alloc : Allocator) (commands : List OwnedCommand) :
    Except Error (List Command) := Replay.recordWith T alloc .new commands

/-- `OwnedCommandBuffer::validate`. -/
def validate (T : ResourceTable) (alloc : Allocator) (commands : List OwnedCommand) :
    Except Error Unit := (Replay.recordWith T alloc .forValidation commands).map fun _ => ()

end Sgfx
