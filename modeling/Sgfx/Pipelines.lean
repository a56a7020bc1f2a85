import Sgfx.Descriptors

/-!
# Fixed-function and programmable pipeline state

Everything a pipeline descriptor is made of: vertex layouts, primitive topology,
blending, rasterisation and depth state, and the fixed-function descriptor
`RenderPipelineDesc`.  A vertex layout's stride is non-zero and every attribute
ends inside it, which is what makes the draw-time range checks meaningful.

## Main Definitions

* `VertexFormat`, `VertexAttribute`, `VertexBufferLayout`
* `PrimitiveTopology.acceptsCount`
* `FragmentProgram`, `RenderPipelineDesc`
* `ColorTargetState` — one fragment output
-/

namespace Sgfx

/-! ## Vertex input -/

/-- Maximum programmable vertex buffer slots. -/
def MAX_VERTEX_BUFFERS : Nat := 8

theorem zero_lt_maxVertexBuffers : 0 < MAX_VERTEX_BUFFERS := by decide

/-- Maximum attributes in one vertex buffer layout. -/
def MAX_VERTEX_ATTRIBUTES : Nat := 16

/-- Type of one vertex attribute. -/
inductive VertexFormat where
  | sint32
  | uint32
  | float16x2
  | float16x4
  | sint16x4
  | snorm10_10_10_2
  | float32x2
  | float32x3
  | float32x4
  | unorm8x4
  | uint16x2
  | float32
  | snorm8x4
  | sint16x2
  | uint32x2
  | uint32x3
  | uint32x4
  | sint32x2
  | sint32x3
  | sint32x4
deriving DecidableEq, Repr

/-- `VertexFormat::byte_size`. -/
def VertexFormat.byteSize : VertexFormat → UInt32
  | float32x2 | uint32x2 | sint32x2 => 8
  | float32x3 | uint32x3 | sint32x3 => 12
  | float32x4 | uint32x4 | sint32x4 => 16
  | float32 | unorm8x4 | sint32 | uint32 | float16x2 | snorm10_10_10_2 | uint16x2 | snorm8x4
  | sint16x2 => 4
  | float16x4 | sint16x4 => 8

/-- One vertex attribute. -/
structure VertexAttribute where
  location : UInt32
  format : VertexFormat
  offset : UInt32
deriving DecidableEq, Repr

/-- `VertexStepMode`: whether a vertex buffer advances per `Vertex` or per `Instance`. -/
inductive VertexStepMode where
  | vertex
  | perInstance
deriving DecidableEq, Repr

/-- The checks of `VertexBufferLayout::new`. -/
def vertexLayoutValid (stride : UInt32) (attributes : List VertexAttribute) : Prop :=
  stride ≠ 0 ∧ attributes ≠ [] ∧ attributes.length ≤ MAX_VERTEX_ATTRIBUTES ∧
    (∀ a ∈ attributes, a.offset.toNat + a.format.byteSize.toNat ≤ stride.toNat) ∧
    (attributes.map VertexAttribute.location).Nodup

instance (stride : UInt32) (attributes : List VertexAttribute) :
    Decidable (vertexLayoutValid stride attributes) := by
  unfold vertexLayoutValid; infer_instance

/-- Layout of one vertex buffer. -/
structure VertexBufferLayout where
  stride : UInt32
  attributes : List VertexAttribute
  stepMode : VertexStepMode
  instanceDivisor : UInt32
  valid : vertexLayoutValid stride attributes
  divisor : instanceDivisor ≠ 0 ∧ (stepMode = .vertex → instanceDivisor = 1)
deriving DecidableEq

namespace VertexBufferLayout

/-- `VertexBufferLayout::new`. -/
def new (stride : UInt32) (attributes : List VertexAttribute) :
    Except Error VertexBufferLayout :=
  if h : vertexLayoutValid stride attributes then
    .ok ⟨stride, attributes, .vertex, 1, h, by decide, fun _ => rfl⟩
  else
    .error .invalidDescriptor

/-- One past the last byte any attribute reads within an element:
`attributes.iter().map(|a| a.offset() + a.format().byte_size()).max().unwrap_or(0)`. -/
def attributeEnd (l : VertexBufferLayout) : UInt64 :=
  (l.attributes.map fun a => a.offset.toUInt64 + a.format.byteSize.toUInt64).foldl max 0

end VertexBufferLayout

/-- Primitive topology of a draw. -/
inductive PrimitiveTopology where
  | triangleList
  | triangleStrip
  | triangleFan
  | lineList
  | lineStrip
  | pointList
deriving DecidableEq, Repr

/-- `PrimitiveTopology::accepts_count`. -/
def PrimitiveTopology.acceptsCount (t : PrimitiveTopology) (count : UInt32) : Bool :=
  match t with
  | triangleList => count != 0 && count % 3 == 0
  | triangleStrip | triangleFan => decide (3 ≤ count)
  | lineList => count != 0 && count % 2 == 0
  | lineStrip => decide (2 ≤ count)
  | pointList => count != 0

/-- Encoded index width. -/
inductive IndexFormat where
  | uint16
  | uint32
deriving DecidableEq, Repr

/-- `IndexFormat::byte_size`. -/
def IndexFormat.byteSize : IndexFormat → UInt64
  | uint16 => 2
  | uint32 => 4

/-! ## Fragment and output state -/

/-- How a fixed-function program uses a sampled colour. -/
inductive TextureSampleMode where
  | rgba
  | rgbIgnoreAlpha
  | alphaMask
deriving DecidableEq, Repr

/-- Fixed-function fragment program. -/
inductive FragmentProgram where
  | solid
  | vertexColor
  | texture (mode : TextureSampleMode)
  | textureVertexColor (mode : TextureSampleMode)
deriving DecidableEq, Repr

/-- `matches!(fragment, Texture(_) | TextureVertexColor(_))`. -/
def FragmentProgram.samples : FragmentProgram → Bool
  | texture _ | textureVertexColor _ => true
  | solid | vertexColor => false

/-- Blend factor. -/
inductive BlendFactor where
  | zero
  | one
  | sourceAlpha
  | oneMinusSourceAlpha
  | destinationAlpha
  | oneMinusDestinationAlpha
  | sourceColor
  | oneMinusSourceColor
  | destinationColor
  | oneMinusDestinationColor
deriving DecidableEq, Repr

/-- Blend operation. -/
inductive BlendOp where
  | add
  | subtract
  | reverseSubtract
  | min
  | max
deriving DecidableEq, Repr

/-- Blending of the colour or the alpha channels. -/
structure BlendComponent where
  sourceFactor : BlendFactor
  destinationFactor : BlendFactor
  operation : BlendOp
deriving DecidableEq, Repr

/-- Blending of one output. -/
structure BlendState where
  color : BlendComponent
  alpha : BlendComponent
deriving DecidableEq, Repr

/-- `BlendState::REPLACE`. -/
def BlendState.REPLACE : BlendState := ⟨⟨.one, .zero, .add⟩, ⟨.one, .zero, .add⟩⟩

/-- Face culling. -/
inductive CullMode where
  | none
  | front
  | back
deriving DecidableEq, Repr

/-- Front-face winding. -/
inductive FrontFace where
  | clockwise
  | counterClockwise
deriving DecidableEq, Repr

/-- Rasterisation state; the depth bias is kept by bits. -/
structure RasterState where
  biasBits : UInt32 × UInt32
  cullMode : CullMode
  frontFace : FrontFace
deriving DecidableEq, Repr

/-- Depth testing state. -/
structure DepthState where
  format : TextureFormat
  compare : CompareFunction
  writeEnabled : Bool
deriving DecidableEq, Repr

/-- Channels written by a fragment output. -/
structure ColorWriteMask where
  bits : UInt8
  valid : bits &&& 240 = 0
deriving DecidableEq

/-- `ColorWriteMask::ALL`. -/
def ColorWriteMask.ALL : ColorWriteMask := ⟨15, by decide⟩

/-- Format, blending and write mask of one fragment output. -/
structure ColorTargetState where
  format : TextureFormat
  blend : BlendState
  writeMask : ColorWriteMask
  color : format ≠ .depth32Float
deriving DecidableEq

/-! ## Fixed-function pipelines -/

/-- Format of the attribute at one location. -/
def attributeAt (l : VertexBufferLayout) (location : UInt32) : Option VertexFormat :=
  (l.attributes.find? fun a => a.location == location).map VertexAttribute.format

/-- Formats of a fixed-function colour attribute. -/
def colorFormat (f : Option VertexFormat) : Bool :=
  f == some .float32x3 || f == some .float32x4 || f == some .unorm8x4

/-- The attribute requirements of `RenderPipelineDesc::new`. -/
def fragmentAttributesValid (l : VertexBufferLayout) (fragment : FragmentProgram) : Bool :=
  (attributeAt l 0 == some .float32x2 || attributeAt l 0 == some .float32x3 ||
      attributeAt l 0 == some .float32x4) &&
    match fragment with
    | .solid => true
    | .vertexColor => colorFormat (attributeAt l 1)
    | .texture _ => attributeAt l 1 == some .float32x2
    | .textureVertexColor _ => colorFormat (attributeAt l 1) && attributeAt l 2 == some .float32x2

/-- Validated fixed-function render pipeline. -/
structure RenderPipelineDesc where
  targetFormat : TextureFormat
  topology : PrimitiveTopology
  vertexBuffer : VertexBufferLayout
  fragment : FragmentProgram
  blend : BlendState
  raster : RasterState
  depth : Option DepthState
  valid : targetFormat ≠ .depth32Float ∧ vertexBuffer.stepMode = .vertex ∧
    fragmentAttributesValid vertexBuffer fragment = true ∧
    ∀ d ∈ depth, d.format = .depth32Float
deriving DecidableEq

end Sgfx
