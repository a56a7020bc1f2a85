import Sgfx.Library.Traces
import Sgfx.Session

/-!
# What a recording means

A recorded list of commands is executed in order.  The state commands set the
bindings of a pass, and a draw or dispatch uses the bindings in force when it
executes.  This module says which locations every command accesses, and how,
without reference to the checks the encoder makes: it is what those checks are
compared with.

A location is a buffer, or one mip level of a texture.  A draw of a fixed-function
pipeline fetches from vertex slot zero and from the index buffer, and samples the
bound texture when its fragment mode samples; a programmable draw uses every
binding its layout declares, and the vertex slots and index buffer it fetches
from.

## Main Definitions

* `Bindings`, `Bindings.apply` — the state in force between two commands
* `Location`, `Command.accesses`, `Command.storageWrites`
* `ResourceBarrier.covers`, `Command.announces`
* `Execution`, `executions` — a recording's commands with the state each met
-/

namespace Sgfx

/-! ## Bindings -/

/-- The pass state in force when a command executes.  A push-constant byte is
known by the address it was read from. -/
structure Bindings where
  pipeline : Option RenderPipelineId
  programmablePipeline : Option ProgrammableRenderPipelineId
  computePipeline : Option ComputePipelineId
  bindGroups : Vector (Option BindGroupId) MAX_BIND_GROUPS
  vertexBuffers : Vector (Option (BufferId × UInt64)) MAX_VERTEX_BUFFERS
  indexBuffer : Option (BufferId × UInt64 × IndexFormat)
  texture : Option TextureId
  sampler : Option SamplerId
  uniforms : Option DrawUniforms
  scissor : Option (Option PixelRect)
  viewport : Option Viewport
  pushConstants : ShaderStage → Nat → Option UInt64
  drawIndex : Option UInt32

namespace Bindings

/-- The state at the beginning of a pass. -/
def initial : Bindings where
  pipeline := none
  programmablePipeline := none
  computePipeline := none
  bindGroups := Vector.replicate _ none
  vertexBuffers := Vector.replicate _ none
  indexBuffer := none
  texture := none
  sampler := none
  uniforms := none
  scissor := none
  viewport := none
  pushConstants := fun _ _ => none
  drawIndex := none

/-- Bytes `offset..` of the named stages, overwritten by a slice. -/
def writeConstants (constants : ShaderStage → Nat → Option UInt64) (stages : ShaderStages)
    (offset : UInt32) (data : ByteSlice) : ShaderStage → Nat → Option UInt64 :=
  fun stage byte =>
    if stages.has stage = true ∧ offset.toNat ≤ byte ∧
        byte < offset.toNat + data.len.toNat then
      some (data.data + .ofNat (byte - offset.toNat))
    else
      constants stage byte

/-- The state after a command.  The two kinds of render pipeline replace each
other. -/
def apply (b : Bindings) : Command → Bindings
  | .beginRenderPass _ | .beginComputePass => initial
  | .setPipeline pipeline =>
      { b with pipeline := some pipeline, programmablePipeline := none }
  | .setProgrammablePipeline pipeline =>
      { b with programmablePipeline := some pipeline, pipeline := none }
  | .setComputePipeline pipeline => { b with computePipeline := some pipeline }
  | .setBindGroup index group =>
      { b with bindGroups := b.bindGroups.setIfInBounds index.toNat (some group) }
  | .setVertexBuffer buffer offset =>
      { b with vertexBuffers := b.vertexBuffers.setIfInBounds 0 (some (buffer, offset)) }
  | .setVertexBufferSlot slot buffer offset =>
      { b with
        vertexBuffers := b.vertexBuffers.setIfInBounds slot.toNat (some (buffer, offset)) }
  | .setIndexBuffer buffer offset format =>
      { b with indexBuffer := some (buffer, offset, format) }
  | .setTexture texture => { b with texture := some texture }
  | .setSampler sampler => { b with sampler := some sampler }
  | .setUniforms uniforms => { b with uniforms := some uniforms }
  | .setScissor scissor => { b with scissor := some scissor }
  | .setViewport viewport => { b with viewport := some viewport }
  | .setDrawIndex index => { b with drawIndex := some index }
  | .setPushConstants stages offset data =>
      { b with pushConstants := writeConstants b.pushConstants stages offset data }
  | _ => b

/-- The state after a list of commands. -/
def replay (b : Bindings) (commands : List Command) : Bindings := commands.foldl apply b

@[simp] theorem replay_snoc (b : Bindings) (commands : List Command) (command : Command) :
    b.replay (commands ++ [command]) = (b.replay commands).apply command := by
  simp [replay]

end Bindings

/-! ## Locations -/

/-- What storage writes and barriers are about: a buffer, or one mip level of a
texture. -/
inductive Location where
  | buffer (id : BufferId)
  | mip (texture : TextureId) (level : UInt32)
deriving DecidableEq

/-- The location of an access. -/
def AnnouncedAccess.location : AnnouncedAccess → Location
  | .buffer id _ => .buffer id
  | .texture id mip _ => .mip id mip

/-- The texture a location belongs to. -/
def Location.texture : Location → Option TextureId
  | .buffer _ => none
  | .mip texture _ => some texture

/-- Whether two locations are parts of one resource. -/
def Location.sameResource : Location → Location → Prop
  | .buffer a, .buffer b => a = b
  | .mip a _, .mip b _ => a = b
  | _, _ => False

/-! ## Accesses -/

/-- One access of every level the texture declares. -/
def textureAccesses (T : ResourceTable) (texture : TextureId) (access : TextureAccess) :
    List AnnouncedAccess :=
  match T.texture texture with
  | .ok desc => desc.mipLevels.map fun mip => .texture texture mip access
  | .error _ => []

/-- The accesses shaders make through one binding. -/
def bindingAccesses (T : ResourceTable) (binding : BindingResource × BindingType) :
    List AnnouncedAccess :=
  match binding.1 with
  | .buffer buffer _ _ => [.buffer buffer (CommandEncoder.bufferBindingAccess binding.2)]
  | .textureView texture view =>
      view.mips.map fun mip =>
        .texture texture mip (CommandEncoder.textureBindingAccess binding.2)
  | .texture texture =>
      textureAccesses T texture (CommandEncoder.textureBindingAccess binding.2)
  | .sampler _ => []

/-- The bindings of the group bound at one descriptor set. -/
def setBindings (T : ResourceTable) (groups : Vector (Option BindGroupId) MAX_BIND_GROUPS)
    (set : BindGroupLayoutDesc × Nat) : List (BindingResource × BindingType) :=
  match groups[set.2]?.join with
  | none => []
  | some id =>
      match T.bindGroupShared id with
      | .ok group => CommandEncoder.groupBindings group group.layout
      | .error _ => []

/-- The bindings a layout declares, over all its descriptor sets. -/
def layoutBindings (T : ResourceTable) (layout : PipelineLayoutDesc)
    (groups : Vector (Option BindGroupId) MAX_BIND_GROUPS) :
    List (BindingResource × BindingType) :=
  layout.bindGroups.zipIdx.flatMap (setBindings T groups)

namespace Bindings

/-- The index buffer an indexed draw fetches from. -/
def indexAccesses (b : Bindings) (indexed : Bool) : List AnnouncedAccess :=
  if indexed then b.indexBuffer.toList.map fun index => .buffer index.1 .index else []

/-- The fetches and samples of a fixed-function draw. -/
def fixedAccesses (T : ResourceTable) (b : Bindings) (desc : RenderPipelineDesc)
    (indexed : Bool) : List AnnouncedAccess :=
  b.indexAccesses indexed ++
    (getElem b.vertexBuffers 0 zero_lt_maxVertexBuffers).toList.map (fun vertex => .buffer vertex.1 .vertex) ++
    (if desc.fragment.samples then b.texture else none).toList.flatMap fun texture =>
      textureAccesses T texture .sampled

/-- The vertex slots a programmable pipeline fetches from. -/
def vertexSlots (b : Bindings) (desc : ProgrammableRenderPipelineDesc) :
    List (Option (BufferId × UInt64)) :=
  b.vertexBuffers.toList.take desc.vertexBuffers.length

/-- The fetches and bound resources of a programmable draw. -/
def programmableAccesses (T : ResourceTable) (b : Bindings)
    (desc : ProgrammableRenderPipelineDesc) (indexed : Bool) : List AnnouncedAccess :=
  (layoutBindings T desc.layout b.bindGroups).flatMap (bindingAccesses T) ++
    ((b.vertexSlots desc).filterMap id).map (fun vertex => .buffer vertex.1 .vertex) ++
    b.indexAccesses indexed

/-- The pipeline a draw uses. -/
inductive DrawPipeline where
  | fixed (desc : RenderPipelineDesc)
  | programmable (desc : ProgrammableRenderPipelineDesc)

/-- The pipeline in force for draws. -/
def drawPipeline (T : ResourceTable) (b : Bindings) : Option DrawPipeline :=
  match b.programmablePipeline with
  | some pipeline =>
      match T.programmableRenderPipelineShared pipeline with
      | .ok desc => some (.programmable desc)
      | .error _ => none
  | none =>
      match b.pipeline.map T.renderPipeline with
      | some (.ok desc) => some (.fixed desc)
      | _ => none

/-- The accesses of a draw. -/
def drawAccesses (T : ResourceTable) (b : Bindings) (indexed : Bool) : List AnnouncedAccess :=
  match b.drawPipeline T with
  | some (.fixed desc) => b.fixedAccesses T desc indexed
  | some (.programmable desc) => b.programmableAccesses T desc indexed
  | none => []

/-- The bindings a draw uses; fixed-function pipelines have none. -/
def drawBindings (T : ResourceTable) (b : Bindings) : List (BindingResource × BindingType) :=
  match b.drawPipeline T with
  | some (.programmable desc) => layoutBindings T desc.layout b.bindGroups
  | _ => []

/-- The bindings a dispatch uses. -/
def dispatchBindings (T : ResourceTable) (b : Bindings) :
    List (BindingResource × BindingType) :=
  match b.computePipeline.map T.computePipeline with
  | some (.ok desc) => layoutBindings T desc.layout b.bindGroups
  | _ => []

end Bindings

namespace Command

/-- Every access the command makes, when executed with these bindings. -/
def accesses (T : ResourceTable) (b : Bindings) : Command → List AnnouncedAccess
  | .writeBuffer buffer _ _ => [.buffer buffer .copyDestination]
  | .writeTexture texture write => [.texture texture write.mipLevel .copyDestination]
  | .blitTexture source sourceMip destination destinationMip _ _ _ _ =>
      [.texture source sourceMip .copySource,
        .texture destination destinationMip .copyDestination]
  | .copyTextureToTexture source _ destination _ =>
      [.texture source 0 .copySource, .texture destination 0 .copyDestination]
  | .copyBufferToBuffer source _ destination _ _ =>
      [.buffer source .copySource, .buffer destination .copyDestination]
  | .beginRenderPass desc =>
      desc.colorAttachments.map (fun attachment =>
        .texture attachment.target 0 .renderAttachment) ++
      desc.depth.toList.map fun depth =>
        .texture depth.target 0 (if depth.readOnly then .sampled else .renderAttachment)
  | .draw .. | .drawInstanced .. => b.drawAccesses T false
  | .drawIndexed .. | .drawIndexedInstanced .. => b.drawAccesses T true
  | .dispatch .. => (b.dispatchBindings T).flatMap (bindingAccesses T)
  | _ => []

/-- The bound resources of a draw or dispatch. -/
def boundResources (T : ResourceTable) (b : Bindings) :
    Command → List (BindingResource × BindingType)
  | .draw .. | .drawInstanced .. | .drawIndexed .. | .drawIndexedInstanced .. =>
      b.drawBindings T
  | .dispatch .. => b.dispatchBindings T
  | _ => []

/-- The locations shaders may write through a storage binding. -/
def storageWrites (T : ResourceTable) (b : Bindings) (command : Command) : List Location :=
  ((command.boundResources T b).filter fun binding => bindingWrites binding.2).flatMap
    fun binding => (bindingAccesses T binding).map AnnouncedAccess.location

end Command

/-! ## Calls and commands -/

/-- The command a render-pass call asks for, whatever the encoder makes of it. -/
def RenderCall.command : RenderCall → Command
  | .setPipeline pipeline => .setPipeline pipeline
  | .setVertexBuffer buffer offset => .setVertexBuffer buffer offset
  | .setVertexBufferSlot slot buffer offset => .setVertexBufferSlot slot buffer offset
  | .setIndexBuffer buffer offset format => .setIndexBuffer buffer offset format
  | .setTexture texture => .setTexture texture
  | .setSampler sampler => .setSampler sampler
  | .setDrawIndex index => .setDrawIndex index
  | .setUniforms uniforms => .setUniforms uniforms
  | .setScissor scissor => .setScissor scissor
  | .setViewport viewport => .setViewport viewport
  | .setPushConstants stages offset data => .setPushConstants stages offset data
  | .setProgrammablePipeline pipeline => .setProgrammablePipeline pipeline
  | .setBindGroup index group => .setBindGroup index group
  | .draw vertexCount firstVertex => .draw vertexCount firstVertex
  | .drawIndexed indexCount firstIndex baseVertex =>
      .drawIndexed indexCount firstIndex baseVertex
  | .drawInstanced count first instances firstInstance =>
      .drawInstanced count first instances firstInstance
  | .drawIndexedInstanced count first baseVertex instances firstInstance =>
      .drawIndexedInstanced count first baseVertex instances firstInstance

/-- The command a compute-pass call asks for. -/
def ComputeCall.command : ComputeCall → Command
  | .setPushConstants stages offset data => .setPushConstants stages offset data
  | .setPipeline pipeline => .setComputePipeline pipeline
  | .setBindGroup index group => .setBindGroup index group
  | .dispatch x y z => .dispatch x y z

/-- The command is one that a call of the command encoder asks for; a whole-level
blit leaves the rectangles to the levels' extents. -/
def EncoderCall.Asks : EncoderCall → Command → Prop
  | .writeBuffer buffer offset data, command => command = .writeBuffer buffer offset data
  | .writeTexture texture write, command => command = .writeTexture texture write
  | .blitTexture source sourceMip destination destinationMip filter, command =>
      ∃ sourceRect destinationRect, command = .blitTexture source sourceMip destination
        destinationMip sourceRect destinationRect filter (false, false)
  | .blitTextureRegion source sourceMip sourceRect destination destinationMip destinationRect
      filter, command =>
      command = .blitTexture source sourceMip destination destinationMip sourceRect
        destinationRect filter (false, false)
  | .blitTextureRegionFlipped source sourceMip sourceRect destination destinationMip
      destinationRect filter flips, command =>
      command = .blitTexture source sourceMip destination destinationMip sourceRect
        destinationRect filter flips
  | .copyTextureToTexture source sourceRect destination destinationRect, command =>
      command = .copyTextureToTexture source sourceRect destination destinationRect
  | .copyBufferToBuffer source sourceOffset destination destinationOffset size, command =>
      command = .copyBufferToBuffer source sourceOffset destination destinationOffset size
  | .resourceBarrier barrier, command => command = .resourceBarrier barrier

/-- Commands that two calls share: vertex slot zero, and a draw of one instance
from instance zero, have a command of their own. -/
def Command.normalise : Command → Command
  | .setVertexBufferSlot slot buffer offset =>
      if slot = 0 then .setVertexBuffer buffer offset
      else .setVertexBufferSlot slot buffer offset
  | .drawInstanced count first instances firstInstance =>
      if instances = 1 ∧ firstInstance = 0 then .draw count first
      else .drawInstanced count first instances firstInstance
  | .drawIndexedInstanced count first baseVertex instances firstInstance =>
      if instances = 1 ∧ firstInstance = 0 then .drawIndexed count first baseVertex
      else .drawIndexedInstanced count first baseVertex instances firstInstance
  | command => command

/-- The command is one that the call asks for. -/
def Call.Asks : Call → Command → Prop
  | .encoder c, command => c.Asks command
  | .beginRenderPass desc, command => command = .beginRenderPass desc
  | .beginComputePass, command => command = .beginComputePass
  | .render c, command => command = c.command.normalise
  | .compute c, command => command = c.command
  | .endPass, command => command = .endRenderPass ∨ command = .endComputePass
  | .dropPass, _ => False

/-- A normalised command has the same effect on the bindings. -/
theorem Bindings.apply_normalise (b : Bindings) (command : Command) :
    b.apply command.normalise = b.apply command := by
  cases command with
  | setVertexBufferSlot slot buffer offset =>
      rw [Command.normalise]
      split
      · rename_i hslot
        subst hslot
        rfl
      · rfl
  | drawInstanced | drawIndexedInstanced =>
      rw [Command.normalise]
      split <;> rfl
  | _ => rfl

/-! ## Barriers -/

namespace ResourceBarrier

/-- Whether the barrier synchronises earlier storage writes of a location. -/
def covers : ResourceBarrier → Location → Prop
  | .global, _ => True
  | .buffer named before _, .buffer id => named = id ∧ before = .storageReadWrite
  | .texture named before _, .mip id _ => named = id ∧ before = .storageWrite
  | .textureMip named mip before _, .mip id level =>
      named = id ∧ mip = level ∧ before = .storageWrite
  | _, _ => False

/-- The locations a barrier names, with the access it waits for. -/
def sources (T : ResourceTable) : ResourceBarrier → List AnnouncedAccess
  | .global => []
  | .buffer named before _ => [.buffer named before]
  | .texture named before _ => textureAccesses T named before
  | .textureMip named mip before _ => [.texture named mip before]

/-- The locations a barrier names, with the access it announces. -/
def announces (T : ResourceTable) : ResourceBarrier → List AnnouncedAccess
  | .global => []
  | .buffer named _ after => [.buffer named after]
  | .texture named _ after => textureAccesses T named after
  | .textureMip named mip _ after => [.texture named mip after]

end ResourceBarrier

namespace Command

/-- Whether the command is a barrier that covers a location. -/
def covers (command : Command) (l : Location) : Prop :=
  ∃ barrier, command = .resourceBarrier barrier ∧ barrier.covers l

/-- The accesses a barrier command announces. -/
def announces (T : ResourceTable) : Command → List AnnouncedAccess
  | .resourceBarrier barrier => barrier.announces T
  | _ => []

/-- The accesses a barrier command waits for. -/
def sources (T : ResourceTable) : Command → List AnnouncedAccess
  | .resourceBarrier barrier => barrier.sources T
  | _ => []

end Command

/-! ## Executions -/

/-- A recorded command with the table and the bindings it was recorded under. -/
structure Execution where
  table : ResourceTable
  bindings : Bindings
  command : Command

namespace Execution

/-- The accesses of an executed command. -/
def accesses (e : Execution) : List AnnouncedAccess := e.command.accesses e.table e.bindings

/-- Its storage writes. -/
def storageWrites (e : Execution) : List Location :=
  e.command.storageWrites e.table e.bindings

/-- The accesses it announces, if it is a barrier. -/
def announces (e : Execution) : List AnnouncedAccess := e.command.announces e.table

/-- The accesses it waits for, if it is a barrier. -/
def sources (e : Execution) : List AnnouncedAccess := e.command.sources e.table

/-- Whether it uses a location. -/
def Uses (e : Execution) (l : Location) : Prop :=
  ∃ a ∈ e.accesses, a.location = l

end Execution

/-- The executions of a log, from the bindings before it. -/
def executionsFrom (b : Bindings) : List Recorded → List Execution
  | [] => []
  | r :: rest => ⟨r.table, b, r.command⟩ :: executionsFrom (b.apply r.command) rest

/-- The executions of a log. -/
def executions (log : List Recorded) : List Execution := executionsFrom .initial log

/-- The bindings in force after a log. -/
def bindingsAfter (log : List Recorded) : Bindings :=
  Bindings.initial.replay (log.map Recorded.command)

theorem executionsFrom_snoc (b : Bindings) (log : List Recorded) (r : Recorded) :
    executionsFrom b (log ++ [r]) = executionsFrom b log ++
      [⟨r.table, b.replay (log.map Recorded.command), r.command⟩] := by
  induction log generalizing b with
  | nil => rfl
  | cons first rest ih => simp [executionsFrom, ih, Bindings.replay]

@[simp] theorem executions_nil : executions [] = [] := rfl

/-- One more recorded command is one more execution, under the bindings before
it. -/
@[simp] theorem executions_snoc (log : List Recorded) (r : Recorded) :
    executions (log ++ [r]) =
      executions log ++ [⟨r.table, bindingsAfter log, r.command⟩] :=
  executionsFrom_snoc ..

@[simp] theorem bindingsAfter_nil : bindingsAfter [] = .initial := rfl

@[simp] theorem bindingsAfter_snoc (log : List Recorded) (r : Recorded) :
    bindingsAfter (log ++ [r]) = (bindingsAfter log).apply r.command := by
  simp [bindingsAfter]

end Sgfx
