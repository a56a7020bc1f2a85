import Mathlib.Logic.Function.Basic
import Sgfx.Library.SlotPool
import Sgfx.Programmable

/-!
# The resource table

A `ResourceTable` owns the descriptors of every logical resource.  Textures,
buffers, bind groups, shader modules and both kinds of programmable pipeline live
in generational slot pools, one per `Category`; samplers and fixed-function
pipelines are append-only.  The twelve define and release operations are two
operations of the slot pool with the checks each category adds.

References and persistent identities are resolved against the table on every
use, so a released identity is an error rather than an alias.

## Main Definitions

* `ResourceTable` — the pools, the append-only lists and the ABI state
* `ResourceTable.ref`, `ResourceTable.get` — resolve an identity
* `BindGroupDesc.validate`
* `ResourceTable.defineTexture` … `ResourceTable.releaseProgrammableRenderPipeline`
* `TableOp` — the define and release operations as data
-/

namespace Sgfx

/-- The descriptor type of each category. -/
@[reducible] def Descriptor : Category → Type
  | .texture => TextureDesc
  | .buffer => BufferDesc
  | .bindGroup => BindGroupDesc
  | .shaderModule => ShaderModuleDesc
  | .computePipeline => ComputePipelineDesc
  | .programmablePipeline => ProgrammableRenderPipelineDesc

/-- The capacity of each category: `MAX_TEXTURES`, `MAX_BUFFERS`, …. -/
def Category.maximum : Category → Nat
  | .texture => 8192
  | .buffer => 4096
  | .bindGroup => 32768
  | .shaderModule => 1024
  | .computePipeline => 256
  | .programmablePipeline => 512

def MAX_SAMPLERS : Nat := 256
def MAX_RENDER_PIPELINES : Nat := 256

/-! ## State -/

/-- One row a mirror accepted: its generation and its encoded words. -/
structure AcceptedRow where
  generation : UInt64
  words : List UInt64
deriving DecidableEq

/-- Encoded copies of the rows a mirror accepted, by slot. -/
abbrev RowCache := List (Option AcceptedRow)

/-- One encoded program row of a producer, with the slot state it encodes. -/
structure EncodedProgram where
  generation : UInt64
  active : Bool
  words : List UInt64
deriving DecidableEq

/-- Encoded program rows of a producer, by slot. -/
abbrev ProgramRows := List (Option EncodedProgram)

/-- `abi::State`: exchange of a table's metadata with a mirror.  The revision
counter is checked by the source, so it never wraps and is a natural number. -/
structure AbiState where
  enabled : Bool
  legacyProgramIds : Bool
  revision : Nat
  snapshot : Nat × List UInt64
  acceptedRows : Category → RowCache
  encodedPrograms : Category → ProgramRows

/-- `State::new`. -/
def AbiState.new : AbiState where
  enabled := false
  legacyProgramIds := false
  revision := 1
  snapshot := (0, [])
  acceptedRows := fun _ => []
  encodedPrograms := fun _ => []

/-- Table that owns validated logical resource descriptors.  Its identity comes
from a process-wide counter that starts at one. -/
structure ResourceTable where
  id : UInt64
  pools : (c : Category) → SlotPool (Descriptor c)
  samplers : List SamplerDesc
  pipelines : List RenderPipelineDesc
  abi : AbiState
  id_ne : id ≠ 0

namespace ResourceTable

/-- `ResourceTable::new`. -/
def new (id : UInt64) (id_ne : id ≠ 0) : ResourceTable where
  id := id
  pools := fun _ => .empty
  samplers := []
  pipelines := []
  abi := .new
  id_ne := id_ne

/-- `abi_changed`. -/
def abiChanged (T : ResourceTable) : ResourceTable :=
  { T with abi := { T.abi with revision := T.abi.revision + 1 } }

/-- Replace one category's pool. -/
def setPool (T : ResourceTable) (c : Category) (p : SlotPool (Descriptor c)) : ResourceTable :=
  { T with pools := Function.update T.pools c p }

@[simp] theorem abiChanged_id (T : ResourceTable) : T.abiChanged.id = T.id := rfl

@[simp] theorem abiChanged_pools (T : ResourceTable) : T.abiChanged.pools = T.pools := rfl

@[simp] theorem abiChanged_samplers (T : ResourceTable) :
    T.abiChanged.samplers = T.samplers := rfl

@[simp] theorem abiChanged_pipelines (T : ResourceTable) :
    T.abiChanged.pipelines = T.pipelines := rfl

@[simp] theorem setPool_id (T : ResourceTable) (c : Category) (p : SlotPool (Descriptor c)) :
    (T.setPool c p).id = T.id := rfl

@[simp] theorem setPool_same (T : ResourceTable) (c : Category) (p : SlotPool (Descriptor c)) :
    (T.setPool c p).pools c = p := Function.update_self ..

theorem setPool_other (T : ResourceTable) {c c' : Category} (p : SlotPool (Descriptor c))
    (h : c' ≠ c) : (T.setPool c p).pools c' = T.pools c' := Function.update_of_ne h ..

@[simp] theorem setPool_samplers (T : ResourceTable) (c : Category)
    (p : SlotPool (Descriptor c)) : (T.setPool c p).samplers = T.samplers := rfl

@[simp] theorem setPool_pipelines (T : ResourceTable) (c : Category)
    (p : SlotPool (Descriptor c)) : (T.setPool c p).pipelines = T.pipelines := rfl

/-! ## Resolving identities -/

/-- The occupant an identity of this table resolves to. -/
def lookup (T : ResourceTable) {c : Category} (id : Id c) : Option (Descriptor c) :=
  (T.pools c).resolve id.index.toNat id.generation

/-- The descriptor behind a reference: `texture`, `buffer`, `shader_module`,
`bind_group_shared`, `compute_pipeline`, `programmable_render_pipeline_shared`. -/
def get (T : ResourceTable) {c : Category} (id : Id c) : Except Error (Descriptor c) :=
  if id.owner ≠ T.id then .error .resourceTableMismatch
  else okOr (T.lookup id) .invalidDescriptor

/-- Resolve a persistent identity into a reference: `texture_ref`, `buffer_ref`,
`bind_group_ref`, and `validate_program_id` for the programs. -/
def ref (T : ResourceTable) {c : Category} (id : Id c) : Except Error (Id c) :=
  if id.owner ≠ T.id then .error .resourceTableMismatch
  else if (T.lookup id).isNone then .error .invalidDescriptor
  else .ok id

abbrev texture (T : ResourceTable) (r : TextureId) : Except Error TextureDesc := T.get r
abbrev buffer (T : ResourceTable) (r : BufferId) : Except Error BufferDesc := T.get r
abbrev bindGroupShared (T : ResourceTable) (r : BindGroupId) : Except Error BindGroupDesc :=
  T.get r
abbrev shaderModule (T : ResourceTable) (r : ShaderModuleId) : Except Error ShaderModuleDesc :=
  T.get r
abbrev computePipeline (T : ResourceTable) (r : ComputePipelineId) :
    Except Error ComputePipelineDesc := T.get r
abbrev programmableRenderPipelineShared (T : ResourceTable)
    (r : ProgrammableRenderPipelineId) : Except Error ProgrammableRenderPipelineDesc := T.get r

abbrev textureRef (T : ResourceTable) (id : TextureId) : Except Error TextureId := T.ref id
abbrev bufferRef (T : ResourceTable) (id : BufferId) : Except Error BufferId := T.ref id

/-- `sampler`. -/
def sampler (T : ResourceTable) (r : SamplerId) : Except Error SamplerDesc :=
  if r.owner ≠ T.id then .error .resourceTableMismatch
  else okOr T.samplers[r.index.toNat]? .invalidDescriptor

/-- `sampler_ref`. -/
def samplerRef (T : ResourceTable) (id : SamplerId) : Except Error SamplerId :=
  (T.sampler id).map fun _ => id

/-- `with_pipeline`, as the descriptor it visits. -/
def renderPipeline (T : ResourceTable) (r : RenderPipelineId) :
    Except Error RenderPipelineDesc :=
  if r.owner ≠ T.id then .error .resourceTableMismatch
  else okOr T.pipelines[r.index.toNat]? .invalidDescriptor

/-- `render_pipeline_ref`. -/
def renderPipelineRef (T : ResourceTable) (id : RenderPipelineId) :
    Except Error RenderPipelineId :=
  (T.renderPipeline id).map fun _ => id

/-- `same_texture`: both references resolve, and whether they agree. -/
def sameTexture (T : ResourceTable) (left right : TextureId) : Except Error Bool := do
  let _ ← T.texture left
  let _ ← T.texture right
  pure (left.index == right.index && left.generation == right.generation)

theorem get_eq_ok {T : ResourceTable} {c : Category} {id : Id c} {d : Descriptor c} :
    T.get id = .ok d ↔ id.owner = T.id ∧ T.lookup id = some d := by
  unfold get
  split
  · rename_i h
    simp [h]
  · rename_i h
    rw [not_not] at h
    simp [h]

theorem ref_eq_ok {T : ResourceTable} {c : Category} {id id' : Id c} :
    T.ref id = .ok id' ↔ id' = id ∧ ∃ d, T.get id = .ok d := by
  simp only [ref, get_eq_ok]
  split
  · rename_i h
    simp [h]
  · rename_i h
    rw [not_not] at h
    split
    · rename_i hnone
      simp [Option.isNone_iff_eq_none.mp hnone]
    · rename_i hsome
      rw [Option.isNone_iff_eq_none, ← ne_eq, Option.ne_none_iff_exists'] at hsome
      simp [h, hsome, eq_comm]

end ResourceTable

/-! ## Bind groups -/

namespace BindGroupDesc

/-- One arm of `BindGroupDesc::validate`: the resource fits the declared type. -/
def validateEntry (T : ResourceTable) (resource : BindingResource) (ty : BindingType) :
    Except Error Unit :=
  match resource, ty with
  | .buffer buffer offset size, .uniformBuffer =>
      validateRange buffer offset size .UNIFORM 16
  | .buffer buffer offset size, .storageBuffer _ =>
      validateRange buffer offset size .STORAGE 4
  | .texture texture, .sampledTexture => do
      let desc ← T.texture (← T.textureRef texture)
      failIf (desc.usage.contains .SAMPLED = false) .invalidUsage
      failIf (desc.format = .depth32Float ∨ desc.arrayLayerCount ≠ 1) .invalidDescriptor
  | .textureView texture view, .sampledTextureView dimension depth => do
      let desc ← T.texture (← T.textureRef texture)
      view.validate desc
      failIf (desc.usage.contains .SAMPLED = false) .invalidUsage
      failIf (view.dimension ≠ dimension ∨ (depth = true ∧ view.format ≠ .depth32Float))
        .bindingLayoutMismatch
  | .texture texture, .storageTexture format _ => do
      let desc ← T.texture (← T.textureRef texture)
      failIf (desc.usage.contains .STORAGE = false) .invalidUsage
      failIf (desc.format ≠ format ∨ desc.arrayLayerCount ≠ 1 ∨ desc.mipLevelCount ≠ 1)
        .bindingLayoutMismatch
  | .textureView texture view, .storageTexture format _ => do
      let desc ← T.texture (← T.textureRef texture)
      view.validate desc
      failIf (desc.usage.contains .STORAGE = false) .invalidUsage
      failIf (view.format ≠ format ∨ view.dimension ≠ .d2 ∨ view.mipLevelCount ≠ 1 ∨
          view.arrayLayerCount ≠ 1)
        .bindingLayoutMismatch
  | .sampler sampler, .sampler => do
      let desc ← T.sampler (← T.samplerRef sampler)
      failIf (desc.compare.isSome = true) .bindingLayoutMismatch
  | .sampler sampler, .comparisonSampler => do
      let desc ← T.sampler (← T.samplerRef sampler)
      failIf (desc.compare.isSome = false) .bindingLayoutMismatch
  | _, _ => .error .bindingLayoutMismatch
where
  /-- The buffer arm: usage, alignment and range. -/
  validateRange (buffer : BufferId) (offset size : UInt64) (required : BufferUsage)
      (alignment : UInt64) : Except Error Unit := do
    let desc ← T.buffer (← T.bufferRef buffer)
    failIf (desc.usage.contains required = false) .invalidUsage
    failIf (size = 0 ∨ offset % alignment ≠ 0 ∨ size % 4 ≠ 0) .invalidValue
    let finish ← okOr (checkedAdd64 offset size) .overflow
    failIf (desc.size < finish) .outOfBounds

/-- No entry aliases an earlier one when either may write. -/
def aliasFree : List (BindGroupEntry × BindGroupLayoutEntry) → Bool
  | [] => true
  | (entry, layout) :: rest =>
      rest.all (fun other => !(resourceAlias other.1.resource entry.resource &&
        (bindingWrites other.2.ty || bindingWrites layout.ty))) && aliasFree rest

/-- `BindGroupDesc::validate`. -/
def validate (d : BindGroupDesc) (T : ResourceTable) : Except Error Unit := do
  failIf (d.entries.length ≠ d.layout.entries.length) .bindingLayoutMismatch
  forEach (d.entries.zip d.layout.entries) fun (entry, layout) => do
    failIf (entry.binding ≠ layout.binding) .bindingLayoutMismatch
    validateEntry T entry.resource layout.ty
  failIf (aliasFree (d.entries.zip d.layout.entries) = false) .resourceAccessConflict

end BindGroupDesc

/-! ## Defining and releasing -/

namespace ResourceTable

open Fallible

/-- Store a descriptor in its category's pool. -/
def define (c : Category) (alloc : Bool) (d : Descriptor c) :
    Fallible ResourceTable Error (Id c) := do
  let slot ← zoom (fun T : ResourceTable => T.pools c) (fun T p => T.setPool c p)
    (SlotPool.define c.maximum alloc .resourceLimitExceeded .outOfMemory d)
  update abiChanged
  let T ← read
  pure ⟨T.id, .ofNat slot.1, slot.2⟩

/-- Vacate a slot of a category's pool. -/
def vacate (c : Category) (index : Nat) : Fallible ResourceTable Error Unit := do
  zoom (fun T : ResourceTable => T.pools c) (fun T p => T.setPool c p)
    (SlotPool.release .resourceLimitExceeded index)
  update abiChanged

/-- Retire an identity after resolving it. -/
def release (c : Category) (id : Id c) : Fallible ResourceTable Error Unit := do
  let T ← read
  let _ ← liftM (T.ref id)
  vacate c id.index.toNat

/-- `push`: append to a bounded list. -/
def pushSampler (alloc : Bool) (d : SamplerDesc) : Fallible ResourceTable Error SamplerId := do
  let T ← read
  liftM (failIf (MAX_SAMPLERS ≤ T.samplers.length) Error.resourceLimitExceeded)
  liftM (failIf (alloc = false) Error.outOfMemory)
  update fun T => ({ T with samplers := T.samplers ++ [d] } : ResourceTable).abiChanged
  pure ⟨T.id, .ofNat T.samplers.length⟩

/-- `define_texture`. -/
def defineTexture (alloc : Bool) (d : TextureDesc) : Fallible ResourceTable Error TextureId :=
  define .texture alloc d

/-- `release_texture`. -/
def releaseTexture (id : TextureId) : Fallible ResourceTable Error Unit := release .texture id

/-- `define_buffer`. -/
def defineBuffer (alloc : Bool) (d : BufferDesc) : Fallible ResourceTable Error BufferId :=
  define .buffer alloc d

/-- `release_buffer`. -/
def releaseBuffer (id : BufferId) : Fallible ResourceTable Error Unit := release .buffer id

/-- `define_sampler`. -/
def defineSampler (alloc : Bool) (d : SamplerDesc) : Fallible ResourceTable Error SamplerId :=
  pushSampler alloc d

/-- `define_render_pipeline`. -/
def defineRenderPipeline (alloc : Bool) (d : RenderPipelineDesc) :
    Fallible ResourceTable Error RenderPipelineId := do
  let T ← read
  liftM (failIf (MAX_RENDER_PIPELINES ≤ T.pipelines.length) Error.resourceLimitExceeded)
  liftM (failIf (alloc = false) Error.outOfMemory)
  update fun T => ({ T with pipelines := T.pipelines ++ [d] } : ResourceTable).abiChanged
  pure ⟨T.id, .ofNat T.pipelines.length⟩

/-- `define_shader_module`. -/
def defineShaderModule (alloc : Bool) (d : ShaderModuleDesc) :
    Fallible ResourceTable Error ShaderModuleId := define .shaderModule alloc d

/-- `define_bind_group`, which validates the group against the table first. -/
def defineBindGroup (alloc : Bool) (d : BindGroupDesc) :
    Fallible ResourceTable Error BindGroupId := do
  let T ← read
  liftM (d.validate T)
  define .bindGroup alloc d

/-- `release_bind_group`. -/
def releaseBindGroup (id : BindGroupId) : Fallible ResourceTable Error Unit :=
  release .bindGroup id

/-- `define_compute_pipeline`, whose shader must be live. -/
def defineComputePipeline (alloc : Bool) (d : ComputePipelineDesc) :
    Fallible ResourceTable Error ComputePipelineId := do
  let T ← read
  let _ ← liftM (T.ref d.shader.module)
  define .computePipeline alloc d

/-- `define_programmable_render_pipeline`, whose shaders must be live. -/
def defineProgrammableRenderPipeline (alloc : Bool) (d : ProgrammableRenderPipelineDesc) :
    Fallible ResourceTable Error ProgrammableRenderPipelineId := do
  let T ← read
  let _ ← liftM (T.ref d.vertex.module)
  let _ ← liftM (T.ref d.fragment.module)
  define .programmablePipeline alloc d

/-- Whether a live pipeline names the shader module. -/
def shaderInUse (T : ResourceTable) (id : ShaderModuleId) : Bool :=
  (T.pools .computePipeline).slots.any (fun slot =>
      slot.descriptor.any fun (p : ComputePipelineDesc) => p.shader.module == id) ||
    (T.pools .programmablePipeline).slots.any (fun slot =>
      slot.descriptor.any fun (p : ProgrammableRenderPipelineDesc) =>
        p.vertex.module == id || p.fragment.module == id)

/-- `release_shader_module`, refused while a live pipeline names the module. -/
def releaseShaderModule (id : ShaderModuleId) : Fallible ResourceTable Error Unit := do
  let T ← read
  let _ ← liftM (T.ref id)
  liftM (failIf (T.shaderInUse id = true) Error.invalidDescriptor)
  vacate .shaderModule id.index.toNat

/-- `release_compute_pipeline`. -/
def releaseComputePipeline (id : ComputePipelineId) : Fallible ResourceTable Error Unit :=
  release .computePipeline id

/-- `release_programmable_render_pipeline`. -/
def releaseProgrammableRenderPipeline (id : ProgrammableRenderPipelineId) :
    Fallible ResourceTable Error Unit := release .programmablePipeline id

end ResourceTable

/-- A define or release call. -/
inductive TableOp where
  | defineTexture (d : TextureDesc)
  | releaseTexture (id : TextureId)
  | defineBuffer (d : BufferDesc)
  | releaseBuffer (id : BufferId)
  | defineSampler (d : SamplerDesc)
  | defineRenderPipeline (d : RenderPipelineDesc)
  | defineShaderModule (d : ShaderModuleDesc)
  | releaseShaderModule (id : ShaderModuleId)
  | defineBindGroup (d : BindGroupDesc)
  | releaseBindGroup (id : BindGroupId)
  | defineComputePipeline (d : ComputePipelineDesc)
  | releaseComputePipeline (id : ComputePipelineId)
  | defineProgrammableRenderPipeline (d : ProgrammableRenderPipelineDesc)
  | releaseProgrammableRenderPipeline (id : ProgrammableRenderPipelineId)

/-- An identity a definition returned, with its category. -/
abbrev AnyId := (c : Category) × Id c

/-- Run a call; a definition in a slot pool answers with its new identity. -/
def TableOp.run (alloc : Bool) : TableOp → Fallible ResourceTable Error (Option AnyId)
  | .defineTexture d => do return some ⟨.texture, ← ResourceTable.defineTexture alloc d⟩
  | .releaseTexture id => do ResourceTable.releaseTexture id; return none
  | .defineBuffer d => do return some ⟨.buffer, ← ResourceTable.defineBuffer alloc d⟩
  | .releaseBuffer id => do ResourceTable.releaseBuffer id; return none
  | .defineSampler d => do let _ ← ResourceTable.defineSampler alloc d; return none
  | .defineRenderPipeline d => do
      let _ ← ResourceTable.defineRenderPipeline alloc d; return none
  | .defineShaderModule d => do
      return some ⟨.shaderModule, ← ResourceTable.defineShaderModule alloc d⟩
  | .releaseShaderModule id => do ResourceTable.releaseShaderModule id; return none
  | .defineBindGroup d => do return some ⟨.bindGroup, ← ResourceTable.defineBindGroup alloc d⟩
  | .releaseBindGroup id => do ResourceTable.releaseBindGroup id; return none
  | .defineComputePipeline d => do
      return some ⟨.computePipeline, ← ResourceTable.defineComputePipeline alloc d⟩
  | .releaseComputePipeline id => do ResourceTable.releaseComputePipeline id; return none
  | .defineProgrammableRenderPipeline d => do
      return some ⟨.programmablePipeline,
        ← ResourceTable.defineProgrammableRenderPipeline alloc d⟩
  | .releaseProgrammableRenderPipeline id => do
      ResourceTable.releaseProgrammableRenderPipeline id; return none

end Sgfx
