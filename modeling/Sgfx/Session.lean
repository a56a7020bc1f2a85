import Sgfx.Generations
import Sgfx.PassEncoders

/-!
# Recording sessions

The three encoders are used one at a time: while a pass encoder exists it borrows
the command encoder, and ending or dropping it gives the command encoder back.
`Session` is that protocol as one state, and `Call` is every call a client can
make of it.  A dropped pass stays open, as does one whose end was rejected.

The resource table is shared: definitions and releases may happen between any two
recording calls.  `World` interleaves both, and keeps the pass descriptors a
client has built (their constructors are the only source of such values) and a
log of the recorded commands together with the table each was recorded against.

## Main Definitions

* `EncoderCall`, `RenderCall`, `ComputeCall`, `Call`
* `Session`, `Session.call`
* `World`, `Event`, `World.step`, `World.run`
-/

namespace Sgfx

open Fallible

/-! ## Calls -/

/-- The calls of `CommandEncoder`. -/
inductive EncoderCall where
  | writeBuffer (buffer : BufferId) (offset : UInt64) (data : ByteSlice)
  | writeTexture (texture : TextureId) (write : TextureWrite)
  | blitTexture (source : TextureId) (sourceMip : UInt32) (destination : TextureId)
      (destinationMip : UInt32) (filter : FilterMode)
  | blitTextureRegion (source : TextureId) (sourceMip : UInt32) (sourceRect : PixelRect)
      (destination : TextureId) (destinationMip : UInt32) (destinationRect : PixelRect)
      (filter : FilterMode)
  | blitTextureRegionFlipped (source : TextureId) (sourceMip : UInt32) (sourceRect : PixelRect)
      (destination : TextureId) (destinationMip : UInt32) (destinationRect : PixelRect)
      (filter : FilterMode) (flips : Bool × Bool)
  | copyTextureToTexture (source : TextureId) (sourceRect : PixelRect)
      (destination : TextureId) (destinationRect : PixelRect)
  | copyBufferToBuffer (source : BufferId) (sourceOffset : UInt64) (destination : BufferId)
      (destinationOffset size : UInt64)
  | resourceBarrier (barrier : ResourceBarrier)

/-- The calls of `RenderPassEncoder`, other than `end`. -/
inductive RenderCall where
  | setPipeline (pipeline : RenderPipelineId)
  | setVertexBuffer (buffer : BufferId) (offset : UInt64)
  | setVertexBufferSlot (slot : UInt32) (buffer : BufferId) (offset : UInt64)
  | setIndexBuffer (buffer : BufferId) (offset : UInt64) (format : IndexFormat)
  | setTexture (texture : TextureId)
  | setSampler (sampler : SamplerId)
  | setDrawIndex (index : UInt32)
  | setUniforms (uniforms : DrawUniforms)
  | setScissor (scissor : Option PixelRect)
  | setViewport (viewport : Viewport)
  | setPushConstants (stages : ShaderStages) (offset : UInt32) (data : ByteSlice)
  | setProgrammablePipeline (pipeline : ProgrammableRenderPipelineId)
  | setBindGroup (index : UInt32) (bindGroup : BindGroupId)
  | draw (vertexCount firstVertex : UInt32)
  | drawIndexed (indexCount firstIndex : UInt32) (baseVertex : Int32)
  | drawInstanced (count first instances firstInstance : UInt32)
  | drawIndexedInstanced (count first : UInt32) (baseVertex : Int32)
      (instances firstInstance : UInt32)

/-- The calls of `ComputePassEncoder`, other than `end`. -/
inductive ComputeCall where
  | setPushConstants (stages : ShaderStages) (offset : UInt32) (data : ByteSlice)
  | setPipeline (pipeline : ComputePipelineId)
  | setBindGroup (index : UInt32) (bindGroup : BindGroupId)
  | dispatch (x y z : UInt32)

/-- Every call of a recording session. -/
inductive Call where
  | encoder (call : EncoderCall)
  | beginRenderPass (desc : RenderPassDesc)
  | beginComputePass
  | render (call : RenderCall)
  | compute (call : ComputeCall)
  | endPass
  | dropPass

/-- Run a `CommandEncoder` call. -/
def EncoderCall.run (T : ResourceTable) (alloc : Allocator) :
    EncoderCall → Fallible CommandEncoder Error Unit
  | .writeBuffer buffer offset data => CommandEncoder.writeBuffer T alloc buffer offset data
  | .writeTexture texture write => CommandEncoder.writeTexture T alloc texture write
  | .blitTexture source sourceMip destination destinationMip filter =>
      CommandEncoder.blitTexture T alloc source sourceMip destination destinationMip filter
  | .blitTextureRegion source sourceMip sourceRect destination destinationMip destinationRect
      filter =>
      CommandEncoder.blitTextureRegion T alloc source sourceMip sourceRect destination
        destinationMip destinationRect filter
  | .blitTextureRegionFlipped source sourceMip sourceRect destination destinationMip
      destinationRect filter flips =>
      CommandEncoder.blitTextureRegionFlipped T alloc source sourceMip sourceRect destination
        destinationMip destinationRect filter flips
  | .copyTextureToTexture source sourceRect destination destinationRect =>
      CommandEncoder.copyTextureToTexture T alloc source sourceRect destination destinationRect
  | .copyBufferToBuffer source sourceOffset destination destinationOffset size =>
      CommandEncoder.copyBufferToBuffer T alloc source sourceOffset destination
        destinationOffset size
  | .resourceBarrier barrier => CommandEncoder.resourceBarrier T alloc barrier

/-- Run a `RenderPassEncoder` call. -/
def RenderCall.run (T : ResourceTable) (alloc : Allocator) :
    RenderCall → Fallible RenderPassEncoder Error Unit
  | .setPipeline pipeline => RenderPassEncoder.setPipeline T alloc pipeline
  | .setVertexBuffer buffer offset => RenderPassEncoder.setVertexBuffer T alloc buffer offset
  | .setVertexBufferSlot slot buffer offset =>
      RenderPassEncoder.setVertexBufferSlot T alloc slot buffer offset
  | .setIndexBuffer buffer offset format =>
      RenderPassEncoder.setIndexBuffer T alloc buffer offset format
  | .setTexture texture => RenderPassEncoder.setTexture T alloc texture
  | .setSampler sampler => RenderPassEncoder.setSampler T alloc sampler
  | .setDrawIndex index => RenderPassEncoder.setDrawIndex alloc index
  | .setUniforms uniforms => RenderPassEncoder.setUniforms alloc uniforms
  | .setScissor scissor => RenderPassEncoder.setScissor alloc scissor
  | .setViewport viewport => RenderPassEncoder.setViewport T alloc viewport
  | .setPushConstants stages offset data =>
      RenderPassEncoder.setPushConstants T alloc stages offset data
  | .setProgrammablePipeline pipeline =>
      RenderPassEncoder.setProgrammablePipeline T alloc pipeline
  | .setBindGroup index bindGroup => RenderPassEncoder.setBindGroup T alloc index bindGroup
  | .draw vertexCount firstVertex => RenderPassEncoder.draw T alloc vertexCount firstVertex
  | .drawIndexed indexCount firstIndex baseVertex =>
      RenderPassEncoder.drawIndexed T alloc indexCount firstIndex baseVertex
  | .drawInstanced count first instances firstInstance =>
      RenderPassEncoder.drawInstanced T alloc count first instances firstInstance
  | .drawIndexedInstanced count first baseVertex instances firstInstance =>
      RenderPassEncoder.drawIndexedInstanced T alloc count first baseVertex instances
        firstInstance

/-- Run a `ComputePassEncoder` call. -/
def ComputeCall.run (T : ResourceTable) (alloc : Allocator) :
    ComputeCall → Fallible ComputePassEncoder Error Unit
  | .setPushConstants stages offset data =>
      ComputePassEncoder.setPushConstants T alloc stages offset data
  | .setPipeline pipeline => ComputePassEncoder.setPipeline T alloc pipeline
  | .setBindGroup index bindGroup => ComputePassEncoder.setBindGroup T alloc index bindGroup
  | .dispatch x y z => ComputePassEncoder.dispatch T alloc x y z

/-! ## Sessions -/

/-- Which encoder the client holds. -/
inductive Session where
  | idle (encoder : CommandEncoder)
  | render (pass : RenderPassEncoder)
  | compute (pass : ComputePassEncoder)

namespace Session

/-- The session of a new command encoder. -/
def new : Session := .idle .new

/-- The command encoder, borrowed or not. -/
def encoder : Session → CommandEncoder
  | idle e => e
  | render p => p.encoder
  | compute p => p.encoder

/-- The end of a pass consumes the pass encoder even when it is rejected. -/
def finishPass (alloc : Allocator) (command : Command) (e : CommandEncoder) :
    Except Error Unit × Session :=
  match CommandEncoder.pushPassEnd alloc command e with
  | (.ok (), e') => (.ok (), .idle { e' with passOpen := false })
  | (.error error, e') => (.error error, .idle e')

/-- Make one call.  A call the borrows rule out in this state does nothing. -/
def call (T : ResourceTable) (alloc : Allocator) (c : Call) : Fallible Session Error Unit :=
  fun s =>
  match c, s with
  | .encoder c, idle e => match c.run T alloc e with
      | (r, e') => (r, idle e')
  | .beginRenderPass desc, idle e => match CommandEncoder.beginRenderPass T alloc desc e with
      | (.ok p, _) => (.ok (), render p)
      | (.error error, e') => (.error error, idle e')
  | .beginComputePass, idle e => match CommandEncoder.beginComputePass alloc e with
      | (.ok p, _) => (.ok (), compute p)
      | (.error error, e') => (.error error, idle e')
  | .render c, render p => match c.run T alloc p with
      | (r, p') => (r, render p')
  | .compute c, compute p => match c.run T alloc p with
      | (r, p') => (r, compute p')
  | .endPass, render p => finishPass alloc .endRenderPass p.encoder
  | .endPass, compute p => finishPass alloc .endComputePass p.encoder
  | .dropPass, s => (.ok (), idle s.encoder)
  | _, s => (.ok (), s)

end Session

/-! ## Worlds -/

/-- One recorded command and the table it was recorded against. -/
structure Recorded where
  table : ResourceTable
  command : Command

/-- How a client builds a pass descriptor from one it holds, or from nothing. -/
inductive PassBuilder where
  | new (target : TextureId) (area : PixelRect) (loadOp : LoadOp) (storeOp : StoreOp)
  | withDepthAttachment (desc : RenderPassDesc) (target : TextureId) (loadOp : DepthLoadOp)
      (storeOp : StoreOp)
  | withColorAttachment (desc : RenderPassDesc) (target : TextureId) (loadOp : LoadOp)
      (storeOp : StoreOp)
  | withReadOnlyDepth (desc : RenderPassDesc)

/-- The descriptor a builder step starts from. -/
def PassBuilder.source : PassBuilder → Option RenderPassDesc
  | new .. => none
  | withDepthAttachment desc .. | withColorAttachment desc .. | withReadOnlyDepth desc =>
      some desc

/-- Run one builder step. -/
def PassBuilder.run (T : ResourceTable) : PassBuilder → Except Error RenderPassDesc
  | new target area loadOp storeOp => RenderPassDesc.new T target area loadOp storeOp
  | withDepthAttachment desc target loadOp storeOp =>
      desc.withDepthAttachment T target loadOp storeOp
  | withColorAttachment desc target loadOp storeOp =>
      desc.withColorAttachment T target loadOp storeOp
  | withReadOnlyDepth desc => desc.withReadOnlyDepth

/-- A table, a recording session on it, the pass descriptors built so far, and
the log of recorded commands. -/
structure World where
  table : ResourceTable
  session : Session
  passes : List RenderPassDesc
  log : List Recorded

/-- One event: a definition or release, the construction of a pass descriptor,
or a recording call. -/
inductive Event where
  | table (alloc : Bool) (op : TableOp)
  | pass (builder : PassBuilder)
  | call (alloc : Allocator) (c : Call)

namespace World

/-- A new encoder on a new table. -/
def new (id : UInt64) (id_ne : id ≠ 0) : World where
  table := .new id id_ne
  session := .new
  passes := []
  log := []

/-- Whether the client holds the values the call takes. -/
def holds (w : World) : Call → Bool
  | .beginRenderPass desc => w.passes.contains desc
  | _ => true

/-- Run one event, whatever its outcome; commands appended to the recording are
logged with the current table. -/
def step (w : World) : Event → World
  | .table alloc op => { w with table := (op.run alloc w.table).2 }
  | .pass builder =>
      if builder.source.all w.passes.contains then
        match builder.run w.table with
        | .ok desc => { w with passes := w.passes ++ [desc] }
        | .error _ => w
      else w
  | .call alloc c =>
      if w.holds c then
        let s := (w.session.call w.table alloc c).2
        { w with
          session := s
          log := w.log ++ (s.encoder.commands.drop w.session.encoder.commands.length).map
            (⟨w.table, ·⟩) }
      else w

theorem step_call (w : World) (alloc : Allocator) (c : Call) :
    w.step (.call alloc c) =
      if w.holds c then
        let s := (w.session.call w.table alloc c).2
        { w with
          session := s
          log := w.log ++ (s.encoder.commands.drop w.session.encoder.commands.length).map
            (⟨w.table, ·⟩) }
      else w := rfl

/-- Run a sequence of events. -/
def run (w : World) (events : List Event) : World := events.foldl step w

end World

end Sgfx
