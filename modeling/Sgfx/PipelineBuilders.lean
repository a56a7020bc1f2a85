import Sgfx.ResourceTable

/-!
# Constructors and builders of pipeline state

The public constructors of the values that a pipeline descriptor is made of, with what each
checks, and which values they can construct: a bias is finite and has no negative zero, the
push-constant ranges of a layout are sorted and share no stage, an entry point exists in its
module, and the attribute locations of a pipeline are distinct.

The locations of a programmable pipeline are below the limit only when its vertex buffers were
set by the builder: `ProgrammableRenderPipelineDesc.new` does not look at them.

## Main Definitions

* `RasterState.Built`, `PipelineLayoutDesc.Built`, `ShaderEntryPoint.Live`
* `RenderPipelineDesc.Built`, `ProgrammableRenderPipelineDesc.Built`

## Main Results

* `RasterState.Built.canonical`, `PipelineLayoutDesc.Built.canonical`
* `ProgrammableRenderPipelineDesc.Built.sound`
-/

namespace Sgfx

/-! ## Vertex layouts -/

namespace VertexBufferLayout

theorem withStepMode_divisor (layout : VertexBufferLayout) (mode : VertexStepMode) :
    (if mode = .vertex then (1 : UInt32) else layout.instanceDivisor) ≠ 0 ∧
      (mode = .vertex → (if mode = .vertex then (1 : UInt32) else layout.instanceDivisor) = 1) := by
  refine ⟨?_, fun h => if_pos h⟩
  split
  · decide
  · exact layout.divisor.1

/-- `VertexBufferLayout::with_step_mode`: vertices are never divided. -/
def withStepMode (layout : VertexBufferLayout) (mode : VertexStepMode) : VertexBufferLayout :=
  { layout with
    stepMode := mode
    instanceDivisor := if mode = .vertex then 1 else layout.instanceDivisor
    divisor := layout.withStepMode_divisor mode }

/-- `VertexBufferLayout::with_instance_divisor`. -/
def withInstanceDivisor (layout : VertexBufferLayout) (divisor : UInt32) :
    Except Error VertexBufferLayout :=
  if h : divisor ≠ 0 ∧ (layout.stepMode = .vertex → divisor = 1) then
    .ok { layout with instanceDivisor := divisor, divisor := h }
  else .error .invalidDescriptor

end VertexBufferLayout

/-! ## Rasterization -/

/-- `x == 0.0`. -/
def F32.isZero (x : F32) : Bool := x.bits == 0 || x.bits == 0x80000000

namespace RasterState

/-- `RasterState::new`. -/
def new (cullMode : CullMode) (frontFace : FrontFace) : RasterState := ⟨(0, 0), cullMode, frontFace⟩

/-- The bits of a bias, without a negative zero. -/
def biasBitsOf (x : F32) : UInt32 := if x.isZero then 0 else x.bits

/-- `RasterState::with_depth_bias`. -/
def withDepthBias (raster : RasterState) (constant slope : F32) : Except Error RasterState := do
  failIf (constant.isFinite = false ∨ slope.isFinite = false) Error.invalidValue
  pure { raster with biasBits := (biasBitsOf constant, biasBitsOf slope) }

/-- What the constructors make. -/
inductive Built : RasterState → Prop
  | new (cullMode : CullMode) (frontFace : FrontFace) : Built (RasterState.new cullMode frontFace)
  | withDepthBias {raster raster' : RasterState} {constant slope : F32} (built : Built raster)
      (h : raster.withDepthBias constant slope = .ok raster') : Built raster'

/-- A finite number that is not the negative zero. -/
def CanonicalBits (bits : UInt32) : Prop :=
  (⟨bits⟩ : F32).isFinite = true ∧ biasBitsOf ⟨bits⟩ = bits

theorem canonicalBits_zero : CanonicalBits 0 := by
  unfold CanonicalBits
  decide

theorem canonicalBits_biasBitsOf {x : F32} (h : x.isFinite = true) : CanonicalBits (biasBitsOf x) := by
  unfold biasBitsOf
  split
  · exact canonicalBits_zero
  · rename_i hzero
    exact ⟨h, if_neg hzero⟩

theorem Built.canonical {raster : RasterState} (h : raster.Built) :
    CanonicalBits raster.biasBits.1 ∧ CanonicalBits raster.biasBits.2 := by
  cases h with
  | new cullMode frontFace => exact ⟨canonicalBits_zero, canonicalBits_zero⟩
  | withDepthBias built h =>
    unfold RasterState.withDepthBias at h
    rw [except_bind_eq_ok] at h
    obtain ⟨_, hfinite, h⟩ := h
    rw [failIf_eq_ok, not_or, Bool.not_eq_false, Bool.not_eq_false] at hfinite
    cases h
    exact ⟨canonicalBits_biasBitsOf hfinite.1, canonicalBits_biasBitsOf hfinite.2⟩

end RasterState

/-! ## Layouts -/

/-- A storage texture has the one format that shaders can write. -/
def storageFormatValid : BindingType → Bool
  | .storageTexture format _ => format == .rgba8Unorm
  | _ => true

theorem storageFormatValid_iff (ty : BindingType) :
    storageFormatValid ty = true ↔
      ∀ format access, ty = .storageTexture format access → format = .rgba8Unorm := by
  cases ty with
  | storageTexture format access =>
    rw [storageFormatValid, beq_iff_eq]
    constructor
    · intro h _ _ heq
      cases heq
      exact h
    · intro h
      exact h format access rfl
  | _ => simp [storageFormatValid]

theorem groupLayoutValid_iff (entries : List BindGroupLayoutEntry) :
    (entries.length ≤ MAX_BINDINGS_PER_GROUP ∧
      entries.Pairwise (fun a b => a.binding < b.binding) ∧
      ∀ e ∈ entries, e.binding.toNat < MAX_BINDINGS_PER_GROUP ∧ e.visibility ≠ .empty ∧
        storageFormatValid e.ty = true) ↔ groupLayoutValid entries := by
  simp only [groupLayoutValid, storageFormatValid_iff]

instance (entries : List BindGroupLayoutEntry) : Decidable (groupLayoutValid entries) :=
  decidable_of_iff _ (groupLayoutValid_iff entries)

/-- `BindGroupLayoutDesc::new`: the entries are sorted by binding and checked. -/
def BindGroupLayoutDesc.new (entries : List BindGroupLayoutEntry) :
    Except Error BindGroupLayoutDesc :=
  let sorted := entries.mergeSort fun a b => a.binding ≤ b.binding
  if h : groupLayoutValid sorted then .ok ⟨sorted, h⟩ else .error .invalidDescriptor

theorem BindGroupLayoutDesc.new_entries (layout : BindGroupLayoutDesc) :
    new layout.entries = .ok layout := by
  have hsorted : layout.entries.mergeSort (fun a b => a.binding ≤ b.binding) = layout.entries := by
    refine List.mergeSort_of_pairwise (layout.valid.2.1.imp fun h => ?_)
    exact decide_eq_true (UInt32.le_of_lt h)
  unfold new
  simp only [hsorted]
  exact dif_pos layout.valid

/-- `PushConstantRange::new`; the error tells which check failed. -/
def PushConstantRange.new (stages : ShaderStages) (offset size : UInt32) :
    Except Error PushConstantRange :=
  if h : stages.isEmpty = false ∧ size ≠ 0 ∧ offset % 4 = 0 ∧ size % 4 = 0 ∧
      offset.toNat + size.toNat ≤ MAX_PUSH_CONSTANT_BYTES then
    .ok ⟨stages, offset, size, h⟩
  else if stages.isEmpty = true ∨ size = 0 ∨ offset % 4 ≠ 0 ∨ size % 4 ≠ 0 then
    .error .invalidDescriptor
  else if 2 ^ 32 ≤ offset.toNat + size.toNat then .error .overflow
  else .error .outOfBounds

namespace PipelineLayoutDesc

/-- The bits of a set of stages. -/
def stageBits (stages : ShaderStages) : Nat :=
  stages.vertex.toNat + 2 * stages.fragment.toNat + 4 * stages.compute.toNat

/-- The order of the keys `(offset, size, stages)`. -/
def rangeLe (a b : PushConstantRange) : Bool :=
  decide (a.offset.toNat < b.offset.toNat ∨ a.offset.toNat = b.offset.toNat ∧
    (a.size.toNat < b.size.toNat ∨ a.size.toNat = b.size.toNat ∧
      stageBits a.stages ≤ stageBits b.stages))

/-- No stage is in both ranges. -/
def disjointStages (a b : PushConstantRange) : Prop :=
  ∀ stage ∈ [ShaderStage.vertex, .fragment, .compute],
    ¬ (a.stages.has stage = true ∧ b.stages.has stage = true)

instance (a b : PushConstantRange) : Decidable (disjointStages a b) := by
  unfold disjointStages
  infer_instance

/-- `PipelineLayoutDesc::new`. -/
def new (bindGroups : List BindGroupLayoutDesc) : Except Error PipelineLayoutDesc :=
  if h : bindGroups.length ≤ MAX_BIND_GROUPS then .ok ⟨bindGroups, [], h⟩
  else .error .invalidDescriptor

/-- `PipelineLayoutDesc::with_push_constant_ranges`: each stage is in at most one range. -/
def withPushConstantRanges (layout : PipelineLayoutDesc) (ranges : List PushConstantRange) :
    Except Error PipelineLayoutDesc := do
  failIf (3 < ranges.length) Error.invalidDescriptor
  failIf (¬ ranges.Pairwise disjointStages) Error.invalidDescriptor
  pure { layout with pushConstantRanges := ranges.mergeSort rangeLe }

/-- What the constructors make. -/
inductive Built : PipelineLayoutDesc → Prop
  | new {bindGroups : List BindGroupLayoutDesc} {layout : PipelineLayoutDesc}
      (h : PipelineLayoutDesc.new bindGroups = .ok layout) : Built layout
  | withPushConstantRanges {layout layout' : PipelineLayoutDesc} {ranges : List PushConstantRange}
      (built : Built layout) (h : layout.withPushConstantRanges ranges = .ok layout') :
      Built layout'

/-- Few sorted ranges of different stages. -/
structure Canonical (layout : PipelineLayoutDesc) : Prop where
  few : layout.pushConstantRanges.length ≤ 3
  disjoint : layout.pushConstantRanges.Pairwise disjointStages
  sorted : layout.pushConstantRanges.Pairwise fun a b => rangeLe a b = true

theorem disjointStages_symm {a b : PushConstantRange} (h : disjointStages a b) : disjointStages b a :=
  fun stage hstage hboth => h stage hstage hboth.symm

theorem rangeLe_trans (a b c : PushConstantRange) (hab : rangeLe a b = true)
    (hbc : rangeLe b c = true) : rangeLe a c = true := by
  unfold rangeLe at *
  rw [decide_eq_true_eq] at *
  omega

theorem rangeLe_total (a b : PushConstantRange) : (rangeLe a b || rangeLe b a) = true := by
  unfold rangeLe
  rw [Bool.or_eq_true, decide_eq_true_eq, decide_eq_true_eq]
  omega

theorem Built.canonical {layout : PipelineLayoutDesc} (h : layout.Built) : layout.Canonical := by
  cases h with
  | new h =>
    unfold PipelineLayoutDesc.new at h
    split at h
    · cases h
      exact ⟨Nat.zero_le 3, .nil, .nil⟩
    · cases h
  | @withPushConstantRanges layout _ ranges built h =>
    unfold PipelineLayoutDesc.withPushConstantRanges at h
    simp only [except_bind_eq_ok, failIf_eq_ok, Decidable.not_not] at h
    obtain ⟨_, hfew, _, hdisjoint, h⟩ := h
    cases h
    have hperm := List.mergeSort_perm ranges rangeLe
    refine ⟨?_, ?_, List.pairwise_mergeSort rangeLe_trans rangeLe_total ranges⟩
    · exact hperm.length_eq ▸ Nat.le_of_not_lt hfew
    · exact (hperm.pairwise_iff disjointStages_symm).mpr hdisjoint

/-- Canonical ranges are set as they are. -/
theorem Canonical.withPushConstantRanges {layout : PipelineLayoutDesc} (h : layout.Canonical)
    (other : PipelineLayoutDesc) :
    other.withPushConstantRanges layout.pushConstantRanges =
      .ok { other with pushConstantRanges := layout.pushConstantRanges } := by
  unfold PipelineLayoutDesc.withPushConstantRanges
  rw [failIf, failIf, if_neg (Nat.not_lt_of_le h.few), if_neg (not_not_intro h.disjoint),
    List.mergeSort_of_pairwise h.sorted]
  rfl

end PipelineLayoutDesc

/-! ## Outputs -/

/-- `ColorWriteMask::from_bits`. -/
def ColorWriteMask.fromBits (bits : UInt8) : Except Error ColorWriteMask :=
  if h : bits &&& 240 = 0 then .ok ⟨bits, h⟩ else .error .invalidValue

/-- `ColorTargetState::new`: depth formats are not colour outputs. -/
def ColorTargetState.new (format : TextureFormat) (blend : BlendState) (writeMask : ColorWriteMask) :
    Except Error ColorTargetState :=
  if h : format ≠ .depth32Float then .ok ⟨format, blend, writeMask, h⟩
  else .error .invalidDescriptor

/-! ## Fixed-function pipelines -/

namespace RenderPipelineDesc

/-- `RenderPipelineDesc::new`. -/
def new (targetFormat : TextureFormat) (topology : PrimitiveTopology)
    (vertexBuffer : VertexBufferLayout) (fragment : FragmentProgram) (blend : BlendState)
    (raster : RasterState) : Except Error RenderPipelineDesc :=
  if h : targetFormat ≠ .depth32Float ∧ vertexBuffer.stepMode = .vertex ∧
      fragmentAttributesValid vertexBuffer fragment = true ∧
      ∀ d ∈ (none : Option DepthState), d.format = .depth32Float then
    .ok ⟨targetFormat, topology, vertexBuffer, fragment, blend, raster, none, h⟩
  else .error .invalidDescriptor

theorem depth_valid (d : RenderPipelineDesc) {depth : DepthState}
    (h : depth.format = .depth32Float) :
    d.targetFormat ≠ .depth32Float ∧ d.vertexBuffer.stepMode = .vertex ∧
      fragmentAttributesValid d.vertexBuffer d.fragment = true ∧
      ∀ other ∈ some depth, other.format = .depth32Float := by
  refine ⟨d.valid.1, d.valid.2.1, d.valid.2.2.1, fun other hother => ?_⟩
  cases hother
  exact h

/-- `RenderPipelineDesc::with_depth_state`. -/
def withDepthState (d : RenderPipelineDesc) (depth : DepthState) : Except Error RenderPipelineDesc :=
  if h : depth.format = .depth32Float then
    .ok { d with depth := some depth, valid := d.depth_valid h }
  else .error .invalidDescriptor

/-- `RenderPipelineDesc::with_raster_state`. -/
def withRasterState (d : RenderPipelineDesc) (raster : RasterState) : RenderPipelineDesc :=
  { d with raster := raster }

/-- What the constructors make. -/
inductive Built : RenderPipelineDesc → Prop
  | new {targetFormat : TextureFormat} {topology : PrimitiveTopology}
      {vertexBuffer : VertexBufferLayout} {fragment : FragmentProgram} {blend : BlendState}
      {raster : RasterState} {d : RenderPipelineDesc} (hraster : raster.Built)
      (h : RenderPipelineDesc.new targetFormat topology vertexBuffer fragment blend raster = .ok d) :
      Built d
  | withDepthState {d d' : RenderPipelineDesc} {depth : DepthState} (built : Built d)
      (h : d.withDepthState depth = .ok d') : Built d'
  | withRasterState {d : RenderPipelineDesc} {raster : RasterState} (built : Built d)
      (hraster : raster.Built) : Built (d.withRasterState raster)

theorem Built.raster {d : RenderPipelineDesc} (h : d.Built) : d.raster.Built := by
  induction h with
  | new hraster h =>
    unfold RenderPipelineDesc.new at h
    split at h
    · cases h
      exact hraster
    · cases h
  | withDepthState built h ih =>
    unfold RenderPipelineDesc.withDepthState at h
    split at h
    · cases h
      exact ih
    · cases h
  | withRasterState built hraster => exact hraster

end RenderPipelineDesc

/-! ## Programmable pipelines -/

/-- `ShaderEntryPoint::new`, of a module of the table. -/
def ShaderEntryPoint.new (T : ResourceTable) (module : ShaderModuleId) (stage : ShaderStage)
    (entryPoint : String) : Except Error ShaderEntryPoint := do
  let desc ← T.shaderModule module
  failIf (desc.hasEntryPoint stage entryPoint = false) Error.invalidDescriptor
  pure ⟨module, stage, entryPoint⟩

/-- The module is in the table and has the entry point, whose name is a string of the
language: at most `isize::MAX` bytes. -/
structure ShaderEntryPoint.Live (T : ResourceTable) (entry : ShaderEntryPoint) : Prop where
  found : ShaderEntryPoint.new T entry.module entry.stage entry.entryPoint = .ok entry
  name_lt : entry.entryPoint.utf8ByteSize < 2 ^ 63

theorem ShaderEntryPoint.Live.ref {T : ResourceTable} {entry : ShaderEntryPoint}
    (h : entry.Live T) : T.ref entry.module = .ok entry.module := by
  obtain ⟨desc, hdesc, -⟩ := except_bind_eq_ok.mp h.found
  unfold ResourceTable.shaderModule ResourceTable.get at hdesc
  unfold ResourceTable.ref
  split at hdesc
  · cases hdesc
  · rename_i howner
    rw [okOr_eq_ok] at hdesc
    rw [if_neg howner, hdesc]
    rfl

/-- A resolved identity is the table's own. -/
theorem ResourceTable.ref_owner {T : ResourceTable} {c : Category} {id : Id c}
    (h : T.ref id = .ok id) : id.owner = T.id := by
  unfold ResourceTable.ref at h
  split at h
  · cases h
  · rename_i howner
    exact Decidable.not_not.mp howner

namespace ProgrammableRenderPipelineDesc

/-- The attribute locations of all slots. -/
def locations (buffers : List VertexBufferLayout) : List UInt32 :=
  buffers.flatMap fun layout => layout.attributes.map VertexAttribute.location

/-- The checks of `with_vertex_buffers`. -/
def LocationsValid (buffers : List VertexBufferLayout) : Prop :=
  (∀ location ∈ locations buffers, location.toNat < MAX_VERTEX_ATTRIBUTES) ∧
    (locations buffers).Nodup

instance (buffers : List VertexBufferLayout) : Decidable (LocationsValid buffers) :=
  @instDecidableAnd _ _
    (@List.decidableBAll UInt32 _ (fun location => Nat.decLt location.toNat MAX_VERTEX_ATTRIBUTES) _)
    (@List.nodupDecidable _ instDecidableEqUInt32 _)

theorem new_valid {vertex fragment : ShaderEntryPoint} {targetFormat : TextureFormat}
    (vertexBuffer : Option VertexBufferLayout)
    (h : vertex.stage = .vertex ∧ fragment.stage = .fragment ∧ targetFormat ≠ .depth32Float) :
    programmableValid vertex fragment targetFormat vertexBuffer.toList none [] := by
  refine ⟨h.1, h.2.1, h.2.2, ?_, fun _ hd => absurd hd (Option.not_mem_none _), Nat.zero_lt_succ _⟩
  cases vertexBuffer with
  | none => exact Nat.zero_le _
  | some layout => exact Nat.succ_le_succ (Nat.zero_le _)

/-- `ProgrammableRenderPipelineDesc::new`. -/
def new (vertex fragment : ShaderEntryPoint) (layout : PipelineLayoutDesc)
    (targetFormat : TextureFormat) (vertexBuffer : Option VertexBufferLayout)
    (topology : PrimitiveTopology) (blend : BlendState) (raster : RasterState) :
    Except Error ProgrammableRenderPipelineDesc :=
  if h : vertex.stage = .vertex ∧ fragment.stage = .fragment ∧ targetFormat ≠ .depth32Float then
    .ok ⟨vertex, fragment, layout, targetFormat, vertexBuffer.toList, topology, blend, raster, none,
      .ALL, [], new_valid vertexBuffer h⟩
  else .error .invalidDescriptor

variable (d : ProgrammableRenderPipelineDesc)

theorem vertexBuffers_valid {buffers : List VertexBufferLayout}
    (h : buffers.length ≤ MAX_VERTEX_BUFFERS ∧ LocationsValid buffers) :
    programmableValid d.vertex d.fragment d.targetFormat buffers d.depth d.additionalTargets :=
  ⟨d.valid.1, d.valid.2.1, d.valid.2.2.1, h.1, d.valid.2.2.2.2.1, d.valid.2.2.2.2.2⟩

/-- `with_vertex_buffers`: locations must be unique across slots and respect the limit. -/
def withVertexBuffers (buffers : List VertexBufferLayout) :
    Except Error ProgrammableRenderPipelineDesc :=
  if h : buffers.length ≤ MAX_VERTEX_BUFFERS ∧ LocationsValid buffers then
    .ok { d with vertexBuffers := buffers, valid := d.vertexBuffers_valid h }
  else if MAX_VERTEX_BUFFERS < buffers.length then .error .resourceLimitExceeded
  else .error .invalidDescriptor

theorem depth_valid {depth : DepthState} (h : depth.format = .depth32Float) :
    programmableValid d.vertex d.fragment d.targetFormat d.vertexBuffers (some depth)
      d.additionalTargets := by
  refine ⟨d.valid.1, d.valid.2.1, d.valid.2.2.1, d.valid.2.2.2.1, fun other hother => ?_,
    d.valid.2.2.2.2.2⟩
  cases hother
  exact h

/-- `with_depth_state`. -/
def withDepthState (depth : DepthState) : Except Error ProgrammableRenderPipelineDesc :=
  if h : depth.format = .depth32Float then
    .ok { d with depth := some depth, valid := d.depth_valid h }
  else .error .invalidDescriptor

theorem targets_valid {first : ColorTargetState} {rest : List ColorTargetState}
    (h : (first :: rest).length ≤ MAX_COLOR_ATTACHMENTS) :
    programmableValid d.vertex d.fragment first.format d.vertexBuffers d.depth rest :=
  ⟨d.valid.1, d.valid.2.1, first.color, d.valid.2.2.2.1, d.valid.2.2.2.2.1, h⟩

/-- `with_color_targets`. -/
def withColorTargets : List ColorTargetState → Except Error ProgrammableRenderPipelineDesc
  | [] => .error .invalidDescriptor
  | first :: rest =>
    if h : (first :: rest).length ≤ MAX_COLOR_ATTACHMENTS then
      .ok { d with
        targetFormat := first.format
        blend := first.blend
        colorWriteMask := first.writeMask
        additionalTargets := rest
        valid := d.targets_valid h }
    else .error .invalidDescriptor

/-- `with_raster_state`. -/
def withRasterState (raster : RasterState) : ProgrammableRenderPipelineDesc :=
  { d with raster := raster }

/-- `color_targets`. -/
def colorTargets : List ColorTargetState :=
  ⟨d.targetFormat, d.blend, d.colorWriteMask, d.valid.2.2.1⟩ :: d.additionalTargets

/-- What the constructors make, of shader modules that are in the table. -/
inductive Built (T : ResourceTable) : ProgrammableRenderPipelineDesc → Prop
  | new {vertex fragment : ShaderEntryPoint} {layout : PipelineLayoutDesc}
      {targetFormat : TextureFormat} {vertexBuffer : Option VertexBufferLayout}
      {topology : PrimitiveTopology} {blend : BlendState} {raster : RasterState}
      {d : ProgrammableRenderPipelineDesc} (hvertex : vertex.Live T) (hfragment : fragment.Live T)
      (hlayout : layout.Built) (hraster : raster.Built)
      (h : ProgrammableRenderPipelineDesc.new vertex fragment layout targetFormat vertexBuffer
        topology blend raster = .ok d) : Built T d
  | withVertexBuffers {d d' : ProgrammableRenderPipelineDesc} {buffers : List VertexBufferLayout}
      (built : Built T d) (h : d.withVertexBuffers buffers = .ok d') : Built T d'
  | withDepthState {d d' : ProgrammableRenderPipelineDesc} {depth : DepthState}
      (built : Built T d) (h : d.withDepthState depth = .ok d') : Built T d'
  | withColorTargets {d d' : ProgrammableRenderPipelineDesc} {targets : List ColorTargetState}
      (built : Built T d) (h : d.withColorTargets targets = .ok d') : Built T d'
  | withRasterState {d : ProgrammableRenderPipelineDesc} {raster : RasterState}
      (built : Built T d) (hraster : raster.Built) : Built T (d.withRasterState raster)

/-- What the constructors establish. -/
structure Sound (T : ResourceTable) : Prop where
  vertex : d.vertex.Live T
  fragment : d.fragment.Live T
  layout : d.layout.Canonical
  raster : d.raster.Built
  locations : (locations d.vertexBuffers).Nodup

variable {d}

theorem Built.sound {T : ResourceTable} (h : d.Built T) : d.Sound T := by
  induction h with
  | @new _ _ _ _ vertexBuffer _ _ _ _ hvertex hfragment hlayout hraster h =>
    unfold ProgrammableRenderPipelineDesc.new at h
    split at h
    · cases h
      refine ⟨hvertex, hfragment, hlayout.canonical, hraster, ?_⟩
      cases vertexBuffer with
      | none => exact List.nodup_nil
      | some layout =>
        change (ProgrammableRenderPipelineDesc.locations [layout]).Nodup
        rw [ProgrammableRenderPipelineDesc.locations, List.flatMap_singleton]
        exact layout.valid.2.2.2.2
    · cases h
  | withVertexBuffers built h ih =>
    unfold ProgrammableRenderPipelineDesc.withVertexBuffers at h
    split at h
    · rename_i hvalid
      cases h
      exact ⟨ih.vertex, ih.fragment, ih.layout, ih.raster, hvalid.2.2⟩
    · split at h <;> cases h
  | withDepthState built h ih =>
    unfold ProgrammableRenderPipelineDesc.withDepthState at h
    split at h
    · cases h
      exact ⟨ih.vertex, ih.fragment, ih.layout, ih.raster, ih.locations⟩
    · cases h
  | @withColorTargets _ _ targets built h ih =>
    cases targets with
    | nil => cases h
    | cons first rest =>
      rw [ProgrammableRenderPipelineDesc.withColorTargets] at h
      split at h
      · cases h
        exact ⟨ih.vertex, ih.fragment, ih.layout, ih.raster, ih.locations⟩
      · cases h
  | withRasterState built hraster ih =>
    exact ⟨ih.vertex, ih.fragment, ih.layout, hraster, ih.locations⟩

end ProgrammableRenderPipelineDesc

end Sgfx
