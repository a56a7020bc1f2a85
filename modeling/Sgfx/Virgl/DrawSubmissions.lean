import Sgfx.Pipelines
import Sgfx.Programmable
import Sgfx.Virgl.DeviceBuffers

/-!
# Submissions of draws

What `Queue::submit_ir_target` reads of a submission and of the native objects that its
draws name, and the checks that every draw passes before anything is encoded
(`validate_ir_draw`).

Two promises of other parts are fields here.  The compiler numbers the storage buffers and
then the textures of a stage, so that the bindings of a draw come in ascending slot order;
and every native pipeline allocates its own shader handles.

Viewports are left out: their words are floating-point arithmetic.

## Main Definitions

* `IrDraw`, `IrProgrammableDraw`, `IrResources`
* `validateIrDraw`
-/

namespace Sgfx.Virgl.Draws

/-! ## Submissions -/

/-- `IrRect`; `PixelRect` has the same fields. -/
structure IrRect where
  x : UInt32
  y : UInt32
  width : UInt32
  height : UInt32
deriving DecidableEq, Repr

/-- `IrTextureFormat`. -/
inductive IrTextureFormat where
  | bgra8
  | rgba8
  | r8
  | rg8
  | depth32Float
  | rgba16Float
  | rgba32Float
deriving DecidableEq, Repr

/-- `IrTextureSpec`. -/
structure IrTextureSpec where
  slot : Nat
  width : UInt32
  height : UInt32
  mipLevels : UInt32
  arrayLayers : UInt32
  cube : Bool
  sampled : Bool
  renderAttachment : Bool
  copyDestination : Bool
  present : Bool
  format : IrTextureFormat
deriving DecidableEq, Repr

/-- `IrSamplerState`; `ir_sampler_states_equal` compares every field, the bounds by their bits. -/
structure IrSamplerState where
  slot : Nat
  minFilter : FilterMode
  magFilter : FilterMode
  mipFilter : FilterMode
  addressU : AddressMode
  addressV : AddressMode
  minLod : F32
  maxLod : F32
  compare : Option CompareFunction
  anisotropy : UInt8
deriving DecidableEq, Repr

/-- `IrFragmentProgram`. -/
inductive IrFragmentProgram where
  | solid
  | vertexColor
  | textureRgba
  | textureRgbIgnoreAlpha
  | textureAlphaMask
  | textureVertexColorRgba
  | textureVertexColorRgbIgnoreAlpha
  | textureVertexColorAlphaMask
deriving DecidableEq, Repr

/-- `IrPipelineState`, as far as draws read it. -/
structure IrPipelineState where
  slot : Nat
  fragment : IrFragmentProgram
deriving DecidableEq, Repr

/-- `IrUniforms`. -/
structure IrUniforms where
  transform : Vector F32 16
  color : Vector F32 4
deriving DecidableEq

/-- `IrConstantBuffer`. -/
structure IrConstantBuffer where
  stage : ShaderStage
  firstRegister : UInt32
  words : List UInt32
deriving DecidableEq

/-- `IrStorageBufferBinding`. -/
structure IrStorageBufferBinding where
  stage : ShaderStage
  slot : UInt32
  buffer : IrBufferSpec
deriving DecidableEq

/-- `IrTextureBinding`. -/
structure IrTextureBinding where
  stage : ShaderStage
  slot : UInt32
  texture : IrTextureSpec
  sampler : Option IrSamplerState
deriving DecidableEq

/-- `IrIndexBufferBinding`. -/
structure IrIndexBufferBinding where
  buffer : IrBufferSpec
  offset : UInt32
  format : IndexFormat
  baseVertex : Int32
deriving DecidableEq

/-- `CompiledShader`, as far as draws read it.  The compiler allocates the register among
the 1024 of the stage's bank. -/
structure CompiledShader where
  firstInstanceRegister : Option UInt32
  register_lt : ∀ register ∈ firstInstanceRegister, register < 1024

/-- `IrProgrammablePipeline`. -/
structure IrProgrammablePipeline where
  slot : Nat
  vertex : CompiledShader
  vertexBuffers : List VertexBufferLayout
  topology : PrimitiveTopology
  buffers_le : vertexBuffers.length ≤ MAX_VERTEX_BUFFERS

/-- Bindings of the same stage are in the order of their slots. -/
def Ascending (storageBuffers : List IrStorageBufferBinding) (textures : List IrTextureBinding) :
    Prop :=
  (storageBuffers.map (fun binding => (binding.stage, binding.slot)) ++
    textures.map fun binding => (binding.stage, binding.slot)).Pairwise
      fun first second => first.1 = second.1 → first.2 < second.2

/-- `IrProgrammableDraw`.  The compiler numbers storage buffers and then textures, so that
draw bindings are in ascending slot order. -/
structure IrProgrammableDraw where
  pipeline : IrProgrammablePipeline
  indexBuffer : Option IrIndexBufferBinding
  constants : List IrConstantBuffer
  textures : List IrTextureBinding
  storageBuffers : List IrStorageBufferBinding
  ascending : Ascending storageBuffers textures

/-- `IrDraw`, without its viewport. -/
structure IrDraw where
  drawIndex : UInt32
  programmable : Option IrProgrammableDraw
  startVertex : Nat
  instanceCount : UInt32
  firstInstance : UInt32
  vertexBuffers : Vector (Option IrVertexBufferBinding) 8
  vertexCount : Nat
  vertexBuffer : Option IrVertexBufferBinding
  pipeline : IrPipelineState
  texture : Option IrTextureSpec
  sampler : Option IrSamplerState
  uniforms : IrUniforms
  scissor : IrRect

/-! ## Native objects -/

/-- `IrBuffer`. -/
structure IrBuffer where
  resourceId : UInt32
  size : UInt64
  uploadedRevision : Option UInt64
  samplerViewHandle : UInt32

/-- `IrTexture`, as far as draws read it. -/
inductive IrTexture where
  | internal (samplerViewHandle r8SamplerViewHandle : UInt32)
  | mapped (samplerViewHandle : UInt32)

namespace IrTexture

/-- `sampler_view_handle`. -/
def samplerViewHandle : IrTexture → UInt32
  | internal view _ | mapped view => view

/-- `programmable_sampler_view_handle`. -/
def programmableSamplerViewHandle : IrTexture → UInt32
  | internal view r8View => if r8View ≠ 0 then r8View else view
  | mapped view => view

end IrTexture

/-- `IrSampler`. -/
structure IrSampler where
  handle : UInt32
  state : IrSamplerState

/-- `IrPipeline`. -/
structure IrPipeline where
  blendHandle : UInt32
  rasterizerHandle : UInt32
  dsaHandle : Option UInt32

/-- `IrNativeProgrammablePipeline`. -/
structure IrNativeProgrammablePipeline where
  description : IrProgrammablePipeline
  vertexShaderHandle : UInt32
  fragmentShaderHandle : UInt32
  vertexElementsHandle : UInt32

/-- `IrResources`, as far as draws read it.  Every native pipeline allocates its own shader
handles. -/
structure IrResources where
  vertexResourceId : UInt32
  buffers : List (Option IrBuffer)
  textures : List (Option IrTexture)
  textureSpecs : List (Option IrTextureSpec)
  samplers : List (Option IrSampler)
  pipelines : List (Option IrPipeline)
  programmablePipelines : List (Option IrNativeProgrammablePipeline)
  vertexShaderHandle : UInt32
  solidFragmentShaderHandle : UInt32
  vertexColorFragmentShaderHandle : UInt32
  textureRgbaFragmentShaderHandle : UInt32
  textureRgbIgnoreAlphaFragmentShaderHandle : UInt32
  textureAlphaMaskFragmentShaderHandle : UInt32
  textureVertexColorRgbaFragmentShaderHandle : UInt32
  textureVertexColorRgbIgnoreAlphaFragmentShaderHandle : UInt32
  textureVertexColorAlphaMaskFragmentShaderHandle : UInt32
  vertexElementsHandle : UInt32
  shaders_distinct : ∀ first second, some first ∈ programmablePipelines →
    some second ∈ programmablePipelines →
    first.vertexShaderHandle = second.vertexShaderHandle → first = second

/-- An occupied slot. -/
def occupied {α : Type} (slots : List (Option α)) (slot : Nat) : Except HandleError α :=
  okOr (slots[slot]?).join .invalidParameter

namespace IrResources

variable (resources : IrResources)

/-- `uploaded_ir_buffer`; the vertex buffers of fixed draws are looked up the same way. -/
def uploadedIrBuffer (spec : IrBufferSpec) : Except HandleError IrBuffer := do
  let buffer ← occupied resources.buffers spec.slot
  failIf (¬ (buffer.size = spec.size ∧ buffer.uploadedRevision = some spec.revision))
    HandleError.invalidParameter
  return buffer

/-- `ir_fragment_shader_handle`. -/
def irFragmentShaderHandle : IrFragmentProgram → UInt32
  | .solid => resources.solidFragmentShaderHandle
  | .vertexColor => resources.vertexColorFragmentShaderHandle
  | .textureRgba => resources.textureRgbaFragmentShaderHandle
  | .textureRgbIgnoreAlpha => resources.textureRgbIgnoreAlphaFragmentShaderHandle
  | .textureAlphaMask => resources.textureAlphaMaskFragmentShaderHandle
  | .textureVertexColorRgba => resources.textureVertexColorRgbaFragmentShaderHandle
  | .textureVertexColorRgbIgnoreAlpha =>
      resources.textureVertexColorRgbIgnoreAlphaFragmentShaderHandle
  | .textureVertexColorAlphaMask => resources.textureVertexColorAlphaMaskFragmentShaderHandle

end IrResources

/-! ## Validation -/

/-- `draw_count_valid`. -/
def drawCountValid (topology : Option PrimitiveTopology) (vertexCount : Nat) : Bool :=
  match topology with
  | some .triangleStrip | some .triangleFan => decide (3 ≤ vertexCount)
  | some .lineList => decide (0 < vertexCount) && vertexCount % 2 == 0
  | some .lineStrip => decide (2 ≤ vertexCount)
  | some .pointList => vertexCount != 0
  | some .triangleList | none => decide (0 < vertexCount) && vertexCount % 3 == 0

/-- `ir_rect_is_within`. -/
def irRectIsWithin (rect : IrRect) (width height : UInt32) : Bool :=
  rect.width != 0 && rect.height != 0 &&
    (checkedAdd32 rect.x rect.width).any (· ≤ width) &&
    (checkedAdd32 rect.y rect.height).any (· ≤ height)

end Sgfx.Virgl.Draws
