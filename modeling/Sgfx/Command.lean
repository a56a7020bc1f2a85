import Sgfx.ResourceTable

/-!
# Logical commands

The commands a recording consists of, and the render-pass descriptors they
carry.  A pass descriptor can only be obtained from its checking constructors,
which read the attachments' descriptors from a resource table.

## Main Definitions

* `LoadOp`, `StoreOp`, `DepthLoadOp`, `ColorAttachment`, `DepthAttachment`
* `RenderPassDesc` with `new`, `withDepthAttachment`, `withColorAttachment`,
  `withReadOnlyDepth`
* `Command`
-/

namespace Sgfx

/-- Colour attachment initialisation. -/
inductive LoadOp where
  | load
  | clear (color : Color)
  | dontCare
deriving DecidableEq

/-- Attachment finalisation. -/
inductive StoreOp where
  | store
  | dontCare
deriving DecidableEq, Repr

/-- Depth attachment initialisation. -/
inductive DepthLoadOp where
  | load
  | clear (value : F32)
  | dontCare
deriving DecidableEq

/-- The `Clear` values `with_depth_attachment` accepts. -/
def DepthLoadOp.valid : DepthLoadOp → Bool
  | clear value => value.isFinite && value.inUnitRange
  | load | dontCare => true

/-- `matches!(load, Clear(_))`. -/
def DepthLoadOp.isClear : DepthLoadOp → Bool
  | clear _ => true
  | load | dontCare => false

/-- One colour image attached to a render pass. -/
structure ColorAttachment where
  target : TextureId
  load : LoadOp
  store : StoreOp
deriving DecidableEq

/-- Depth attachment of a render pass. -/
structure DepthAttachment where
  target : TextureId
  load : DepthLoadOp
  store : StoreOp
  readOnly : Bool
deriving DecidableEq

/-- Configuration of one colour render pass; `extraColors` are the occupied
entries of the source's fixed array, which fills from the front. -/
structure RenderPassDesc where
  target : TextureId
  area : PixelRect
  load : LoadOp
  store : StoreOp
  depth : Option DepthAttachment
  extraColors : List ColorAttachment
  extra_le : extraColors.length < MAX_COLOR_ATTACHMENTS
deriving DecidableEq

namespace RenderPassDesc

/-- `color_attachments`: outputs in location order. -/
def colorAttachments (d : RenderPassDesc) : List ColorAttachment :=
  ⟨d.target, d.load, d.store⟩ :: d.extraColors

/-- The checks every colour attachment passes. -/
def checkColor (T : ResourceTable) (target : TextureId) (area : PixelRect) :
    Except Error Unit := do
  let texture ← T.texture target
  failIf (texture.format = .depth32Float ∨ texture.arrayLayerCount ≠ 1) .invalidDescriptor
  failIf (texture.usage.contains .RENDER_ATTACHMENT = false) .invalidUsage
  failIf (area.isWithin texture.extent = false) .outOfBounds

/-- `RenderPassDesc::new`. -/
def new (T : ResourceTable) (target : TextureId) (area : PixelRect) (loadOp : LoadOp)
    (storeOp : StoreOp) : Except Error RenderPassDesc := do
  checkColor T target area
  pure ⟨target, area, loadOp, storeOp, none, [], by decide⟩

/-- `RenderPassDesc::with_depth_attachment`. -/
def withDepthAttachment (d : RenderPassDesc) (T : ResourceTable) (target : TextureId)
    (loadOp : DepthLoadOp) (storeOp : StoreOp) : Except Error RenderPassDesc := do
  let texture ← T.texture target
  let colorTexture ← T.texture d.target
  failIf (texture.format ≠ .depth32Float ∨ texture.arrayLayerCount ≠ 1) .invalidDescriptor
  failIf (texture.usage.contains .RENDER_ATTACHMENT = false) .invalidUsage
  failIf (texture.extent ≠ colorTexture.extent ∨ d.area.isWithin texture.extent = false)
    .outOfBounds
  failIf (loadOp.valid = false) .invalidDescriptor
  pure { d with depth := some ⟨target, loadOp, storeOp, false⟩ }

/-- `RenderPassDesc::with_color_attachment`. -/
def withColorAttachment (d : RenderPassDesc) (T : ResourceTable) (target : TextureId)
    (loadOp : LoadOp) (storeOp : StoreOp) : Except Error RenderPassDesc := do
  let _ ← new T target d.area loadOp storeOp
  let texture ← T.texture target
  let colorTexture ← T.texture d.target
  failIf (texture.extent ≠ colorTexture.extent) .outOfBounds
  failIf (d.colorAttachments.any (fun attachment => attachment.target == target) = true)
    .attachmentFeedback
  if room : d.extraColors.length + 1 < MAX_COLOR_ATTACHMENTS then
    pure { d with
      extraColors := d.extraColors ++ [⟨target, loadOp, storeOp⟩]
      extra_le := by simpa using room }
  else
    throw .resourceLimitExceeded

/-- `RenderPassDesc::with_read_only_depth`. -/
def withReadOnlyDepth (d : RenderPassDesc) : Except Error RenderPassDesc := do
  let depth ← okOr d.depth .invalidDescriptor
  failIf (depth.load.isClear = true) .invalidDescriptor
  pure { d with depth := some { depth with readOnly := true } }

end RenderPassDesc

/-- One validated logical graphics command. -/
inductive Command where
  | blitTexture (source : TextureId) (sourceMip : UInt32) (destination : TextureId)
      (destinationMip : UInt32) (sourceRect destinationRect : PixelRect) (filter : FilterMode)
      (flips : Bool × Bool)
  | copyBufferToBuffer (source : BufferId) (sourceOffset : UInt64) (destination : BufferId)
      (destinationOffset size : UInt64)
  | setProgrammablePipeline (pipeline : ProgrammableRenderPipelineId)
  | setBindGroup (index : UInt32) (bindGroup : BindGroupId)
  | beginComputePass
  | endComputePass
  | setComputePipeline (pipeline : ComputePipelineId)
  | dispatch (x y z : UInt32)
  | resourceBarrier (barrier : ResourceBarrier)
  | writeBuffer (buffer : BufferId) (offset : UInt64) (data : ByteSlice)
  | writeTexture (texture : TextureId) (write : TextureWrite)
  | copyTextureToTexture (source : TextureId) (sourceRect : PixelRect)
      (destination : TextureId) (destinationRect : PixelRect)
  | beginRenderPass (desc : RenderPassDesc)
  | endRenderPass
  | setPipeline (pipeline : RenderPipelineId)
  | setVertexBuffer (buffer : BufferId) (offset : UInt64)
  | setVertexBufferSlot (slot : UInt32) (buffer : BufferId) (offset : UInt64)
  | setIndexBuffer (buffer : BufferId) (offset : UInt64) (format : IndexFormat)
  | setTexture (texture : TextureId)
  | setSampler (sampler : SamplerId)
  | setUniforms (uniforms : DrawUniforms)
  | setDrawIndex (index : UInt32)
  | setScissor (scissor : Option PixelRect)
  | setViewport (viewport : Viewport)
  | setPushConstants (stages : ShaderStages) (offset : UInt32) (data : ByteSlice)
  | draw (vertexCount firstVertex : UInt32)
  | drawInstanced (vertexCount firstVertex instanceCount firstInstance : UInt32)
  | drawIndexedInstanced (indexCount firstIndex : UInt32) (baseVertex : Int32)
      (instanceCount firstInstance : UInt32)
  | drawIndexed (indexCount firstIndex : UInt32) (baseVertex : Int32)
deriving DecidableEq

/-- Whether the command draws or dispatches. -/
def Command.isDraw : Command → Bool
  | draw .. | drawInstanced .. | drawIndexed .. | drawIndexedInstanced .. | dispatch .. => true
  | _ => false

end Sgfx
