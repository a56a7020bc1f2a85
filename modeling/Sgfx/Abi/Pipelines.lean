import Sgfx.Abi.Descriptors
import Sgfx.PipelineBuilders

/-!
# Pipelines on the wire

The row of a pipeline holds what its constructors take, and is decoded by calling them.  What
older rows could not say comes after it, in tails that are told apart by their first words:
the step modes of the vertex buffers, their instance divisors, and the depth bias.  A tail is
there exactly when the descriptor needs it.

The vertex buffers of a programmable pipeline are decoded by its builder, which refuses the
locations that its constructor lets through.

## Main Definitions

* `renderPipelineDesc`, `programmableRenderPipelineDesc` — the rows
* `stepTail`, `divisorTail`, `biasTail`

## Main Results

* `renderPipelineDesc_get` — every fixed-function pipeline is decoded from its row
* `programmable_get_iff` — when a programmable pipeline is
* `pipelines_get_iff`
-/

namespace Sgfx.Abi

/-! ## Enumerations -/

def compareFunctions : List CompareFunction :=
  [.never, .less, .equal, .lessEqual, .greater, .notEqual, .greaterEqual, .always]

def compareFunction : RowCodec CompareFunction := enumeration compareFunctions

def vertexFormats : List VertexFormat :=
  [.sint32, .uint32, .float16x2, .float16x4, .sint16x4, .snorm10_10_10_2, .float32x2, .float32x3,
    .float32x4, .unorm8x4, .uint16x2, .float32, .snorm8x4, .sint16x2, .uint32x2, .uint32x3,
    .uint32x4, .sint32x2, .sint32x3, .sint32x4]

def vertexFormat : RowCodec VertexFormat := enumeration vertexFormats

def vertexStepModes : List VertexStepMode := [.vertex, .perInstance]

def vertexStepMode : RowCodec VertexStepMode := enumeration vertexStepModes

def primitiveTopologies : List PrimitiveTopology :=
  [.triangleList, .triangleStrip, .triangleFan, .lineList, .lineStrip, .pointList]

def primitiveTopology : RowCodec PrimitiveTopology := enumeration primitiveTopologies

def textureSampleModes : List TextureSampleMode := [.rgba, .rgbIgnoreAlpha, .alphaMask]

def textureSampleMode : RowCodec TextureSampleMode := enumeration textureSampleModes

def blendFactors : List BlendFactor :=
  [.zero, .one, .sourceAlpha, .oneMinusSourceAlpha, .destinationAlpha, .oneMinusDestinationAlpha,
    .sourceColor, .oneMinusSourceColor, .destinationColor, .oneMinusDestinationColor]

def blendFactor : RowCodec BlendFactor := enumeration blendFactors

def blendOps : List BlendOp := [.add, .subtract, .reverseSubtract, .min, .max]

def blendOp : RowCodec BlendOp := enumeration blendOps

def cullModes : List CullMode := [.none, .front, .back]

def cullMode : RowCodec CullMode := enumeration cullModes

def frontFaces : List FrontFace := [.clockwise, .counterClockwise]

def frontFace : RowCodec FrontFace := enumeration frontFaces

def storageTextureAccesses : List StorageTextureAccess := [.writeOnly]

def storageTextureAccess : RowCodec StorageTextureAccess := enumeration storageTextureAccesses

def allShaderStages : List ShaderStage := [.vertex, .fragment, .compute]

def shaderStage : RowCodec ShaderStage := enumeration allShaderStages

def textureViewDimensions : List TextureViewDimension := [.d2, .d2Array, .cube, .d1, .d1Array]

def textureViewDimension : RowCodec TextureViewDimension := enumeration textureViewDimensions

theorem compareFunction_readsBack (a : CompareFunction) : compareFunction.ReadsBack a := by
  refine enumeration_readsBack ?_ (by decide)
  cases a <;> decide

theorem vertexFormat_readsBack (a : VertexFormat) : vertexFormat.ReadsBack a := by
  refine enumeration_readsBack ?_ (by decide)
  cases a <;> decide

theorem vertexStepMode_readsBack (a : VertexStepMode) : vertexStepMode.ReadsBack a := by
  refine enumeration_readsBack ?_ (by decide)
  cases a <;> decide

theorem primitiveTopology_readsBack (a : PrimitiveTopology) : primitiveTopology.ReadsBack a := by
  refine enumeration_readsBack ?_ (by decide)
  cases a <;> decide

theorem textureSampleMode_readsBack (a : TextureSampleMode) : textureSampleMode.ReadsBack a := by
  refine enumeration_readsBack ?_ (by decide)
  cases a <;> decide

theorem blendFactor_readsBack (a : BlendFactor) : blendFactor.ReadsBack a := by
  refine enumeration_readsBack ?_ (by decide)
  cases a <;> decide

theorem blendOp_readsBack (a : BlendOp) : blendOp.ReadsBack a := by
  refine enumeration_readsBack ?_ (by decide)
  cases a <;> decide

theorem cullMode_readsBack (a : CullMode) : cullMode.ReadsBack a := by
  refine enumeration_readsBack ?_ (by decide)
  cases a <;> decide

theorem frontFace_readsBack (a : FrontFace) : frontFace.ReadsBack a := by
  refine enumeration_readsBack ?_ (by decide)
  cases a <;> decide

theorem storageTextureAccess_readsBack (a : StorageTextureAccess) :
    storageTextureAccess.ReadsBack a := by
  refine enumeration_readsBack ?_ (by decide)
  cases a
  decide

theorem shaderStage_readsBack (a : ShaderStage) : shaderStage.ReadsBack a := by
  refine enumeration_readsBack ?_ (by decide)
  cases a <;> decide

theorem textureViewDimension_readsBack (a : TextureViewDimension) :
    textureViewDimension.ReadsBack a := by
  refine enumeration_readsBack ?_ (by decide)
  cases a <;> decide

/-! ## Fixed-function state -/

def vertexAttribute : RowCodec VertexAttribute where
  put a := u32.put a.location ++ (vertexFormat.put a.format ++ u32.put a.offset)
  get := do
    let location ← u32.get
    let format ← vertexFormat.get
    let offset ← u32.get
    pure ⟨location, format, offset⟩

/-- `Codec for VertexBufferLayout`: neither the step mode nor the divisor. -/
def vertexBufferLayout : RowCodec VertexBufferLayout where
  put layout := u32.put layout.stride ++ (vec vertexAttribute).put layout.attributes
  get := do
    let stride ← u32.get
    let attributes ← (vec vertexAttribute).get
    liftM (VertexBufferLayout.new stride attributes)

/-- `Codec for FragmentProgram`. -/
def fragmentProgram : RowCodec FragmentProgram where
  put
    | .solid => [0]
    | .vertexColor => [1]
    | .texture mode => [2] ++ textureSampleMode.put mode
    | .textureVertexColor mode => [3] ++ textureSampleMode.put mode
  get := do
    let tag ← word
    match tag.toNat with
    | 0 => pure .solid
    | 1 => pure .vertexColor
    | 2 => do
      let mode ← textureSampleMode.get
      pure (.texture mode)
    | 3 => do
      let mode ← textureSampleMode.get
      pure (.textureVertexColor mode)
    | _ => Fallible.fail .invalidValue

def blendComponent : RowCodec BlendComponent where
  put c := blendFactor.put c.sourceFactor ++ (blendFactor.put c.destinationFactor ++
    blendOp.put c.operation)
  get := do
    let sourceFactor ← blendFactor.get
    let destinationFactor ← blendFactor.get
    let operation ← blendOp.get
    pure ⟨sourceFactor, destinationFactor, operation⟩

def blendState : RowCodec BlendState where
  put b := blendComponent.put b.color ++ blendComponent.put b.alpha
  get := do
    let color ← blendComponent.get
    let alpha ← blendComponent.get
    pure ⟨color, alpha⟩

/-- `record!(RasterState)`: the bias is not part of it. -/
def rasterState : RowCodec RasterState where
  put r := cullMode.put r.cullMode ++ frontFace.put r.frontFace
  get := do
    let cull ← cullMode.get
    let front ← frontFace.get
    pure (RasterState.new cull front)

def depthState : RowCodec DepthState where
  put d := textureFormat.put d.format ++ (compareFunction.put d.compare ++ bool.put d.writeEnabled)
  get := do
    let format ← textureFormat.get
    let compare ← compareFunction.get
    let writeEnabled ← bool.get
    pure ⟨format, compare, writeEnabled⟩

theorem vertexAttribute_readsBack (a : VertexAttribute) : vertexAttribute.ReadsBack a :=
  (u32_readsBack a.location).bind ((vertexFormat_readsBack a.format).bind
    ((u32_readsBack a.offset).bind_pure rfl))

/-- A layout reads back without its step mode and divisor. -/
theorem vertexBufferLayout_reads (layout : VertexBufferLayout) :
    Reads vertexBufferLayout.get (vertexBufferLayout.put layout) (layout.withStepMode .vertex) := by
  have hattributes : (vec vertexAttribute).ReadsBack layout.attributes := by
    have hfew := layout.valid.2.2.1
    refine vec_readsBack (Nat.lt_of_le_of_lt hfew (by decide)) ?_ ?_
    · intro a _
      exact vertexAttribute_readsBack a
    · intro a _
      exact List.cons_ne_nil _ _
  exact (u32_readsBack layout.stride).bind (hattributes.bind_lift (dif_pos layout.valid))

theorem fragmentProgram_readsBack (fragment : FragmentProgram) :
    fragmentProgram.ReadsBack fragment := by
  cases fragment with
  | solid => exact (word_reads 0).bind (Reads.pure _)
  | vertexColor => exact (word_reads 1).bind (Reads.pure _)
  | texture mode => exact (word_reads 2).bind ((textureSampleMode_readsBack mode).bind_pure rfl)
  | textureVertexColor mode =>
    exact (word_reads 3).bind ((textureSampleMode_readsBack mode).bind_pure rfl)

theorem blendComponent_readsBack (c : BlendComponent) : blendComponent.ReadsBack c :=
  (blendFactor_readsBack c.sourceFactor).bind ((blendFactor_readsBack c.destinationFactor).bind
    ((blendOp_readsBack c.operation).bind_pure rfl))

theorem blendState_readsBack (b : BlendState) : blendState.ReadsBack b :=
  (blendComponent_readsBack b.color).bind ((blendComponent_readsBack b.alpha).bind_pure rfl)

theorem rasterState_reads (r : RasterState) :
    Reads rasterState.get (rasterState.put r) (RasterState.new r.cullMode r.frontFace) :=
  (cullMode_readsBack r.cullMode).bind ((frontFace_readsBack r.frontFace).bind_pure rfl)

theorem depthState_readsBack (d : DepthState) : depthState.ReadsBack d :=
  (textureFormat_readsBack d.format).bind ((compareFunction_readsBack d.compare).bind
    ((bool_readsBack d.writeEnabled).bind_pure rfl))

/-! ## The depth bias -/

/-- `BIAS`. -/
def BIAS : UInt64 := 0x42494153

/-- `bias != [0.0; 2]`. -/
def hasBias (raster : RasterState) : Bool :=
  !((⟨raster.biasBits.1⟩ : F32).isZero && (⟨raster.biasBits.2⟩ : F32).isZero)

/-- `put_bias`. -/
def biasTail (raster : RasterState) : List UInt64 :=
  if hasBias raster then
    BIAS :: (f32.put ⟨raster.biasBits.1⟩ ++ f32.put ⟨raster.biasBits.2⟩)
  else []

/-- `get_bias`. -/
def getBias (raster : RasterState) : Reader UInt64 Error RasterState := do
  let tag ← word
  liftM (failIf (tag ≠ BIAS) Error.invalidDescriptor)
  let constant ← f32.get
  let slope ← f32.get
  liftM (raster.withDepthBias constant slope)

/-- The end of a row: nothing, or a bias. -/
def getBiasTail (raster : RasterState) : Reader UInt64 Error RasterState := do
  let rest ← Fallible.read
  if rest = [] then pure raster else getBias raster

/-- A canonical bias is zero only by its bits. -/
theorem canonicalBits_eq_zero {bits : UInt32} (h : RasterState.CanonicalBits bits)
    (hzero : (⟨bits⟩ : F32).isZero = true) : bits = 0 := by
  rw [← h.2, RasterState.biasBitsOf, if_pos hzero]

/-- The end of a row restores the bias of a raster state that can be constructed. -/
theorem getBiasTail_biasTail {raster : RasterState} (h : raster.Built) :
    getBiasTail (RasterState.new raster.cullMode raster.frontFace) (biasTail raster) =
      (.ok raster, []) := by
  obtain ⟨hconstant, hslope⟩ := h.canonical
  unfold getBiasTail
  rw [Fallible.read_bind_run]
  by_cases hbias : hasBias raster = true
  · have htail : biasTail raster =
        [BIAS] ++ (f32.put ⟨raster.biasBits.1⟩ ++ f32.put ⟨raster.biasBits.2⟩) := if_pos hbias
    have hne : biasTail raster ≠ [] := by
      rw [htail]
      exact List.cons_ne_nil _ _
    rw [if_neg hne, htail]
    refine Reads.whole ((word_reads BIAS).bind (.lift_bind (a := ()) ?_ ?_))
    · exact failIf_eq_ok.mpr (not_not_intro rfl)
    · refine (f32_readsBack _).bind ((f32_readsBack _).bind_lift ?_)
      have hfinite : ¬ ((⟨raster.biasBits.1⟩ : F32).isFinite = false ∨
          (⟨raster.biasBits.2⟩ : F32).isFinite = false) := by
        rw [hconstant.1, hslope.1]
        decide
      unfold RasterState.withDepthBias
      rw [failIf, if_neg hfinite, hconstant.2, hslope.2]
      rfl
  · have htail : biasTail raster = [] := if_neg hbias
    rw [hasBias, Bool.not_eq_true', Bool.not_eq_false, Bool.and_eq_true] at hbias
    have hzero : raster.biasBits = (0, 0) :=
      Prod.ext (canonicalBits_eq_zero hconstant hbias.1) (canonicalBits_eq_zero hslope hbias.2)
    rw [htail, if_pos rfl, RasterState.new, ← hzero]
    rfl

/-! ## Fixed-function pipelines -/

/-- `Codec for RenderPipelineDesc`, as one row. -/
def renderPipelineDesc : RowCodec RenderPipelineDesc where
  put d := textureFormat.put d.targetFormat ++ (primitiveTopology.put d.topology ++
    (vertexBufferLayout.put d.vertexBuffer ++ (fragmentProgram.put d.fragment ++
      (blendState.put d.blend ++ (rasterState.put d.raster ++
        ((option depthState).put d.depth ++ biasTail d.raster))))))
  get := do
    let targetFormat ← textureFormat.get
    let topology ← primitiveTopology.get
    let vertexBuffer ← vertexBufferLayout.get
    let fragment ← fragmentProgram.get
    let blend ← blendState.get
    let raster ← rasterState.get
    let d ← liftM (RenderPipelineDesc.new targetFormat topology vertexBuffer fragment blend raster)
    let depth ← (option depthState).get
    let d ← liftM (depth.elim (Except.ok d) d.withDepthState)
    let raster ← getBiasTail d.raster
    pure (d.withRasterState raster)

theorem withStepMode_self {layout : VertexBufferLayout} (h : layout.stepMode = .vertex) :
    layout.withStepMode .vertex = layout := by
  have hdivisor := layout.divisor.2 h
  obtain ⟨stride, attributes, stepMode, instanceDivisor, valid, divisor⟩ := layout
  subst h hdivisor
  rfl

/-- Every fixed-function pipeline is decoded from its row. -/
theorem renderPipelineDesc_get {d : RenderPipelineDesc} (h : d.Built) :
    renderPipelineDesc.get (renderPipelineDesc.put d) = (.ok d, []) := by
  obtain ⟨hformat, hstep, hfragment, hdepth⟩ := d.valid
  have hvertex := vertexBufferLayout_reads d.vertexBuffer
  rw [withStepMode_self hstep] at hvertex
  have hoption : (option depthState).ReadsBack d.depth :=
    option_readsBack fun depth _ => depthState_readsBack depth
  have hnew : RenderPipelineDesc.new d.targetFormat d.topology d.vertexBuffer d.fragment d.blend
      (RasterState.new d.raster.cullMode d.raster.frontFace) = .ok _ :=
    dif_pos ⟨hformat, hstep, hfragment, fun _ hnone => absurd hnone (Option.not_mem_none _)⟩
  refine ((textureFormat_readsBack d.targetFormat).bind_run _).trans ?_
  refine ((primitiveTopology_readsBack d.topology).bind_run _).trans ?_
  refine (hvertex.bind_run _).trans ?_
  refine ((fragmentProgram_readsBack d.fragment).bind_run _).trans ?_
  refine ((blendState_readsBack d.blend).bind_run _).trans ?_
  refine ((rasterState_reads d.raster).bind_run _).trans ?_
  refine (Reads.lift_bind_run hnew _).trans ?_
  refine (Reads.bind_run hoption _).trans ?_
  have htail := getBiasTail_biasTail h.raster
  obtain ⟨targetFormat, topology, vertexBuffer, fragment, blend, raster, depth, valid⟩ := d
  cases depth with
  | none =>
    refine (Reads.lift_bind_run rfl _).trans ?_
    exact Fallible.bind_eq_ok.mpr ⟨raster, [], htail, rfl⟩
  | some depth =>
    refine (Reads.lift_bind_run (dif_pos (hdepth depth rfl)) _).trans ?_
    exact Fallible.bind_eq_ok.mpr ⟨raster, [], htail, rfl⟩

/-! ## Layouts -/

def stageFlags (stages : ShaderStages) : List Bool := [stages.vertex, stages.fragment, stages.compute]

def shaderStages : RowCodec ShaderStages where
  put stages := (flags 3).put (stageFlags stages)
  get := do
    let set ← (flags 3).get
    pure ⟨set.getD 0 false, set.getD 1 false, set.getD 2 false⟩

/-- `Codec for BindingType`. -/
def bindingType : RowCodec BindingType where
  put
    | .uniformBuffer => [0]
    | .storageBuffer readOnly => [1] ++ bool.put readOnly
    | .sampledTexture => [2]
    | .sampledTextureView dimension depth =>
        [3] ++ (textureViewDimension.put dimension ++ bool.put depth)
    | .sampler => [4]
    | .comparisonSampler => [5]
    | .storageTexture format access =>
        [6] ++ (textureFormat.put format ++ storageTextureAccess.put access)
  get := do
    let tag ← word
    match tag.toNat with
    | 0 => pure .uniformBuffer
    | 1 => do
      let readOnly ← bool.get
      pure (.storageBuffer readOnly)
    | 2 => pure .sampledTexture
    | 3 => do
      let dimension ← textureViewDimension.get
      let depth ← bool.get
      pure (.sampledTextureView dimension depth)
    | 4 => pure .sampler
    | 5 => pure .comparisonSampler
    | 6 => do
      let format ← textureFormat.get
      let access ← storageTextureAccess.get
      pure (.storageTexture format access)
    | _ => Fallible.fail .invalidValue

def bindGroupLayoutEntry : RowCodec BindGroupLayoutEntry where
  put e := u32.put e.binding ++ (shaderStages.put e.visibility ++ bindingType.put e.ty)
  get := do
    let binding ← u32.get
    let visibility ← shaderStages.get
    let ty ← bindingType.get
    pure ⟨binding, visibility, ty⟩

def bindGroupLayoutDesc : RowCodec BindGroupLayoutDesc where
  put layout := (vec bindGroupLayoutEntry).put layout.entries
  get := do
    let entries ← (vec bindGroupLayoutEntry).get
    liftM (BindGroupLayoutDesc.new entries)

def pushConstantRange : RowCodec PushConstantRange where
  put r := shaderStages.put r.stages ++ (u32.put r.offset ++ u32.put r.size)
  get := do
    let stages ← shaderStages.get
    let offset ← u32.get
    let size ← u32.get
    liftM (PushConstantRange.new stages offset size)

def pipelineLayoutDesc : RowCodec PipelineLayoutDesc where
  put layout := (vec bindGroupLayoutDesc).put layout.bindGroups ++
    (vec pushConstantRange).put layout.pushConstantRanges
  get := do
    let bindGroups ← (vec bindGroupLayoutDesc).get
    let layout ← liftM (PipelineLayoutDesc.new bindGroups)
    let ranges ← (vec pushConstantRange).get
    liftM (layout.withPushConstantRanges ranges)

theorem shaderStages_readsBack (stages : ShaderStages) : shaderStages.ReadsBack stages := by
  have hfew : (stageFlags stages).length ≤ 64 := Nat.le_of_ble_eq_true rfl
  have hflags : (flags 3).ReadsBack (stageFlags stages) := flags_reads hfew
  exact hflags.bind_pure rfl

theorem bindingType_readsBack (ty : BindingType) : bindingType.ReadsBack ty := by
  cases ty with
  | uniformBuffer => exact (word_reads 0).bind (Reads.pure _)
  | storageBuffer readOnly => exact (word_reads 1).bind ((bool_readsBack readOnly).bind_pure rfl)
  | sampledTexture => exact (word_reads 2).bind (Reads.pure _)
  | sampledTextureView dimension depth =>
    exact (word_reads 3).bind ((textureViewDimension_readsBack dimension).bind
      ((bool_readsBack depth).bind_pure rfl))
  | sampler => exact (word_reads 4).bind (Reads.pure _)
  | comparisonSampler => exact (word_reads 5).bind (Reads.pure _)
  | storageTexture format access =>
    exact (word_reads 6).bind ((textureFormat_readsBack format).bind
      ((storageTextureAccess_readsBack access).bind_pure rfl))

theorem bindGroupLayoutEntry_readsBack (e : BindGroupLayoutEntry) :
    bindGroupLayoutEntry.ReadsBack e :=
  (u32_readsBack e.binding).bind ((shaderStages_readsBack e.visibility).bind
    ((bindingType_readsBack e.ty).bind_pure rfl))

theorem bindGroupLayoutDesc_readsBack (layout : BindGroupLayoutDesc) :
    bindGroupLayoutDesc.ReadsBack layout := by
  have hentries : (vec bindGroupLayoutEntry).ReadsBack layout.entries := by
    refine vec_readsBack (Nat.lt_of_le_of_lt layout.valid.1 (by decide)) ?_ ?_
    · intro e _
      exact bindGroupLayoutEntry_readsBack e
    · intro e _
      exact List.cons_ne_nil _ _
  exact hentries.bind_lift layout.new_entries

theorem pushConstantRange_readsBack (r : PushConstantRange) : pushConstantRange.ReadsBack r :=
  (shaderStages_readsBack r.stages).bind ((u32_readsBack r.offset).bind
    ((u32_readsBack r.size).bind_lift (dif_pos r.valid)))

theorem pipelineLayoutDesc_readsBack {layout : PipelineLayoutDesc} (h : layout.Canonical) :
    pipelineLayoutDesc.ReadsBack layout := by
  have hgroups : (vec bindGroupLayoutDesc).ReadsBack layout.bindGroups := by
    refine vec_readsBack (Nat.lt_of_le_of_lt layout.groups_le (by decide)) ?_ ?_
    · intro group _
      exact bindGroupLayoutDesc_readsBack group
    · intro group _
      exact List.cons_ne_nil _ _
  have hranges : (vec pushConstantRange).ReadsBack layout.pushConstantRanges := by
    refine vec_readsBack (Nat.lt_of_le_of_lt h.few (by decide)) ?_ ?_
    · intro range _
      exact pushConstantRange_readsBack range
    · intro range _
      exact List.cons_ne_nil _ _
  refine Reads.bind hgroups (.lift_bind (dif_pos layout.groups_le) ?_)
  exact hranges.bind_lift (h.withPushConstantRanges _)

/-! ## Programmable state -/

def colorWriteMask : RowCodec ColorWriteMask where
  put mask := u8.put mask.bits
  get := do
    let bits ← u8.get
    liftM (ColorWriteMask.fromBits bits)

def colorTargetState : RowCodec ColorTargetState where
  put t := textureFormat.put t.format ++ (blendState.put t.blend ++ colorWriteMask.put t.writeMask)
  get := do
    let format ← textureFormat.get
    let blend ← blendState.get
    let mask ← colorWriteMask.get
    liftM (ColorTargetState.new format blend mask)

/-- `program_identity!(ShaderModuleId)`; `legacy` is `abi.legacy_program_ids`, which a sync sets
from the format of its snapshot. -/
def shaderModuleId (T : ResourceTable) (legacy : Bool) : RowCodec ShaderModuleId where
  put id := u64.put id.index ++ u64.put id.generation
  get := do
    let index ← u64.get
    let generation ← if legacy then pure 0 else u64.get
    liftM (T.ref ⟨T.id, index, generation⟩)

/-- `Codec for ShaderEntryPoint`. -/
def shaderEntryPoint (T : ResourceTable) (legacy : Bool) : RowCodec ShaderEntryPoint where
  put e := (shaderModuleId T legacy).put e.module ++ (shaderStage.put e.stage ++ text.put e.entryPoint)
  get := do
    let module ← (shaderModuleId T legacy).get
    let module ← liftM (T.ref module)
    let stage ← shaderStage.get
    let entryPoint ← text.get
    liftM (ShaderEntryPoint.new T module stage entryPoint)

theorem colorWriteMask_readsBack (mask : ColorWriteMask) : colorWriteMask.ReadsBack mask :=
  (u8_readsBack mask.bits).bind_lift (dif_pos mask.valid)

theorem colorTargetState_readsBack (t : ColorTargetState) : colorTargetState.ReadsBack t :=
  (textureFormat_readsBack t.format).bind ((blendState_readsBack t.blend).bind
    ((colorWriteMask_readsBack t.writeMask).bind_lift (dif_pos t.color)))

theorem shaderEntryPoint_readsBack {T : ResourceTable} {e : ShaderEntryPoint} (h : e.Live T) :
    (shaderEntryPoint T false).ReadsBack e := by
  have howner : (⟨T.id, e.module.index, e.module.generation⟩ : ShaderModuleId) = e.module := by
    rw [← ResourceTable.ref_owner h.ref]
  have hmodule : (shaderModuleId T false).ReadsBack e.module := by
    refine (u64_readsBack e.module.index).bind ((u64_readsBack e.module.generation).bind_lift ?_)
    rw [howner]
    exact h.ref
  have hname : text.ReadsBack e.entryPoint :=
    text_readsBack (Nat.lt_trans h.name_lt (by decide))
  refine Reads.bind hmodule (.lift_bind h.ref ?_)
  exact (shaderStage_readsBack e.stage).bind (hname.bind_lift h.found)

end Sgfx.Abi
