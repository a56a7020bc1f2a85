import Sgfx.Virgl.DrawCommands
import Sgfx.Virgl.DrawSubmissions

/-!
# Encoding the draws of a pass

The draw loop of `Queue::submit_ir_target`: each draw of a submission is encoded as the
commands that bind what it uses, and a `DRAW_VBO`.  Two caches leave out bindings that are
in force already: the `bound_*` variables of the loop for fixed draws, and
`ProgrammableBindings` for programmable ones.

A programmable draw clears the variables of the loop that it overwrites, and the first
fixed draw after it discards `ProgrammableBindings`.  The variables for the sampler view
and the sampler state of fixed draws are not among the ones that are cleared.

## Main Definitions

* `ProgrammableBindings`, `pushProgrammableDraw`
* `PassBindings`, `pushFixedDraw`, `pushDraws`
* `encodePass` — a packet
-/

namespace Sgfx.Virgl.Draws

/-! ## Draws -/

/-- `PIPE_PRIM_*` of a topology. -/
def primitive : PrimitiveTopology → UInt32
  | .triangleList => 4
  | .triangleStrip => 5
  | .triangleFan => 6
  | .lineList => 1
  | .lineStrip => 3
  | .pointList => 0

/-- `push_instanced_draw_parameters`. -/
def pushInstancedDrawParameters (startVertex vertexCount : Nat) (indexed : Bool) (baseVertex : Int32)
    (topology : PrimitiveTopology) (instanceCount : UInt32) : Except HandleError (List UInt32) := do
  failIf (instanceCount = 0) HandleError.invalidParameter
  failIf (2 ^ 32 ≤ startVertex ∨ 2 ^ 32 ≤ vertexCount) HandleError.invalidParameter
  failIf (drawCountValid (some topology) vertexCount = false) HandleError.invalidParameter
  return command VIRGL_CCMD_DRAW_VBO 0 [.ofNat startVertex, .ofNat vertexCount, primitive topology,
    if indexed then 1 else 0, instanceCount, baseVertex.toUInt32, 0, 0, 0, 0, 0xffffffff, 0]

/-- `push_draw`. -/
def pushDraw (startVertex vertexCount : Nat) : Except HandleError (List UInt32) :=
  pushInstancedDrawParameters startVertex vertexCount false 0 .triangleList 1

/-- The words that set a scissor rectangle. -/
def IrRect.words (rect : IrRect) : List UInt32 :=
  [rect.x ||| (rect.y <<< 16), (rect.x + rect.width) ||| ((rect.y + rect.height) <<< 16)]

/-- The parameters that the draw-parameter register of a vertex shader receives. -/
structure DrawParameters where
  firstInstance : UInt32
  firstVertex : UInt32
  drawIndex : UInt32
deriving DecidableEq, Repr

/-- The words of the draw-parameter register. -/
def DrawParameters.words (parameters : DrawParameters) : List UInt32 :=
  [parameters.firstInstance, parameters.firstVertex, parameters.drawIndex, 0]

/-- A slot of a stage, with the view and the sampler bound there. -/
structure TextureEntry where
  stage : UInt32
  slot : UInt32
  view : UInt32
  sampler : UInt32
deriving DecidableEq, Repr

/-- `ProgrammableBindings`. -/
structure ProgrammableBindings where
  rasterizer : Option UInt32
  dsa : Option UInt32
  pipeline : Option (UInt32 × UInt32 × UInt32 × UInt32)
  vertexBuffers : Option (List VertexBuffer)
  constants : Option (List IrConstantBuffer)
  firstInstance : Option DrawParameters
  vertexConstants : List UInt32
  fragmentConstants : List UInt32
  textures : List TextureEntry
  scissor : Option IrRect
  indexBuffer : Option IndexBuffer

/-- `ProgrammableBindings::default`. -/
def ProgrammableBindings.default : ProgrammableBindings :=
  ⟨none, none, none, none, none, none, [], [], [], none, none⟩

/-- Write words into a bank, which grows with zeros as far as they need. -/
def place (values : List UInt32) (start : Nat) (words : List UInt32) : List UInt32 :=
  let grown := values ++ List.replicate (start + words.length - values.length) 0
  grown.take start ++ words ++ grown.drop (start + words.length)

/-- The constant banks of the two stages. -/
structure ConstantBanks where
  vertex : List UInt32
  fragment : List UInt32

/-- Place a constant buffer in the bank of its stage. -/
def ConstantBanks.place (banks : ConstantBanks) (constant : IrConstantBuffer) :
    Except HandleError ConstantBanks :=
  let start := 4 * constant.firstRegister.toNat
  match constant.stage with
  | .vertex => .ok { banks with vertex := Draws.place banks.vertex start constant.words }
  | .fragment => .ok { banks with fragment := Draws.place banks.fragment start constant.words }
  | .compute => .error .invalidParameter

/-- The banks that a draw's constants fill. -/
def packConstants (constants : List IrConstantBuffer) : Except HandleError ConstantBanks :=
  constants.foldlM ConstantBanks.place ⟨[], []⟩

/-- Patch the draw-parameter register. -/
def patchParameters (register : Option UInt32) (parameters : DrawParameters) (values : List UInt32) :
    List UInt32 :=
  match register with
  | some register => place values (4 * register.toNat) parameters.words
  | none => values

/-- The banks that new constants are patched into: the old ones, or new ones. -/
def ProgrammableBindings.banks (bindings : ProgrammableBindings) (constants : List IrConstantBuffer) :
    Except HandleError ConstantBanks :=
  if bindings.constants = some constants then
    .ok ⟨bindings.vertexConstants, bindings.fragmentConstants⟩
  else
    packConstants constants

/-- The entry of a slot. -/
def entryAt (textures : List TextureEntry) (stage slot : UInt32) : Option TextureEntry :=
  textures.find? fun entry => entry.stage = stage ∧ entry.slot = slot

/-- Update the entry of a slot, or add one. -/
def remember (entry : TextureEntry) : List TextureEntry → List TextureEntry
  | [] => [entry]
  | old :: rest =>
      if old.stage = entry.stage ∧ old.slot = entry.slot then entry :: rest
      else old :: remember entry rest

/-- The `PIPE_SHADER_*` constant of a graphics stage. -/
def pipeShader : ShaderStage → Except HandleError UInt32
  | .vertex => .ok PIPE_SHADER_VERTEX
  | .fragment => .ok PIPE_SHADER_FRAGMENT
  | .compute => .error .invalidParameter

/-- What a storage buffer binding binds. -/
def storageEntry (resources : IrResources) (binding : IrStorageBufferBinding) :
    Except HandleError TextureEntry := do
  let stage ← pipeShader binding.stage
  let buffer ← resources.uploadedIrBuffer binding.buffer
  return ⟨stage, binding.slot, buffer.samplerViewHandle, 0⟩

/-- The handle of the sampler of a texture binding. -/
def samplerHandle (resources : IrResources) (state : Option IrSamplerState) :
    Except HandleError UInt32 :=
  match state with
  | some state => do
      let sampler ← occupied resources.samplers state.slot
      failIf (sampler.state ≠ state) HandleError.invalidParameter
      return sampler.handle
  | none => .ok 0

/-- What a texture binding binds: of a depth image that is attached, the copy. -/
def textureEntry (resources : IrResources) (depthSampleCopy : Option (Nat × UInt32))
    (binding : IrTextureBinding) : Except HandleError TextureEntry := do
  let stage ← pipeShader binding.stage
  let texture ← occupied resources.textures binding.texture.slot
  let sampler ← samplerHandle resources binding.sampler
  let view := match depthSampleCopy.filter fun copy => copy.1 = binding.texture.slot with
    | some copy => copy.2
    | none => texture.programmableSamplerViewHandle
  return ⟨stage, binding.slot, view, sampler⟩

/-- What the bindings of a programmable draw bind, in order. -/
def textureEntries (resources : IrResources) (depthSampleCopy : Option (Nat × UInt32))
    (programmable : IrProgrammableDraw) : Except HandleError (List TextureEntry) := do
  let storage ← programmable.storageBuffers.mapM (storageEntry resources)
  let textures ← programmable.textures.mapM (textureEntry resources depthSampleCopy)
  return storage ++ textures

/-- The vertex buffer of one slot. -/
def vertexBinding (resources : IrResources) (draw : IrDraw) (layout : VertexBufferLayout) (slot : Nat) :
    Except HandleError VertexBuffer := do
  let binding ← occupied draw.vertexBuffers.toList slot
  let buffer ← resources.uploadedIrBuffer binding.buffer
  return ⟨buffer.resourceId, layout.stride, binding.offset⟩

/-- The vertex buffers of a programmable draw. -/
def vertexBindings (resources : IrResources) (draw : IrDraw) (programmable : IrProgrammableDraw) :
    Except HandleError (List VertexBuffer) :=
  programmable.pipeline.vertexBuffers.zipIdx.mapM fun entry =>
    vertexBinding resources draw entry.1 entry.2

/-- The array of eight vertex buffers that is compared. -/
def padded (buffers : List VertexBuffer) : List VertexBuffer :=
  buffers ++ List.replicate (8 - buffers.length) ⟨0, 0, 0⟩

/-- `indexed_byte_offset`. -/
def indexedByteOffset (offset : UInt32) (first indexSize : Nat) : Except HandleError UInt32 := do
  failIf (2 ^ 32 ≤ first * indexSize + offset.toNat) HandleError.invalidParameter
  return .ofNat (first * indexSize + offset.toNat)

/-- The index buffer of a draw. -/
def indexBinding (resources : IrResources) (draw : IrDraw) (binding : IrIndexBufferBinding) :
    Except HandleError IndexBuffer := do
  let buffer ← resources.uploadedIrBuffer binding.buffer
  let offset ← indexedByteOffset binding.offset draw.startVertex binding.format.byteSize.toNat
  return ⟨buffer.resourceId, binding.format.byteSize.toUInt32, offset⟩

/-- The parameters of a programmable draw. -/
def drawParameters (draw : IrDraw) (programmable : IrProgrammableDraw) : DrawParameters where
  firstInstance := draw.firstInstance
  firstVertex :=
    match programmable.indexBuffer with
    | some binding => binding.baseVertex.toUInt32
    | none => .ofNat draw.startVertex
  drawIndex := draw.drawIndex

namespace ProgrammableBindings

variable (bindings : ProgrammableBindings)

end ProgrammableBindings

/-- `FixedUniformBindings`. -/
structure FixedUniformBindings where
  vertex : Option (List UInt32)
  fragment : Option (List UInt32)

/-- `FixedUniformBindings::default`. -/
def FixedUniformBindings.default : FixedUniformBindings := ⟨none, none⟩

/-- The bits of a transform. -/
def IrUniforms.vertexWords (uniforms : IrUniforms) : List UInt32 :=
  uniforms.transform.toList.map F32.bits

/-- The bits of a color. -/
def IrUniforms.fragmentWords (uniforms : IrUniforms) : List UInt32 :=
  uniforms.color.toList.map F32.bits

/-- `FixedUniformBindings::bind`. -/
def FixedUniformBindings.bind (bindings : FixedUniformBindings) (uniforms : IrUniforms) :
    List UInt32 × FixedUniformBindings :=
  (elide bindings.vertex uniforms.vertexWords
      (pushConstantWords PIPE_SHADER_VERTEX uniforms.vertexWords) ++
    elide bindings.fragment uniforms.fragmentWords
      (pushConstantWords PIPE_SHADER_FRAGMENT uniforms.fragmentWords),
    ⟨some uniforms.vertexWords, some uniforms.fragmentWords⟩)

/-- The variables of the draw loop. -/
structure PassBindings where
  blend : Option UInt32
  fragmentShader : Option UInt32
  samplerView : Option UInt32
  samplerState : Option UInt32
  vertexBuffer : Option VertexBuffer
  programmable : Bool
  programmableBindings : ProgrammableBindings
  fixedUniformBindings : FixedUniformBindings
  scissor : Option IrRect

namespace PassBindings

/-- The variables at the start of the draw loop. -/
def start (resources : IrResources) (passScissor : IrRect) : PassBindings where
  blend := none
  fragmentShader := none
  samplerView := none
  samplerState := none
  vertexBuffer := some ⟨resources.vertexResourceId, 40, 0⟩
  programmable := false
  programmableBindings := .default
  fixedUniformBindings := .default
  scissor := some passScissor

variable (bindings : PassBindings)

end PassBindings

/-- The vertex buffer of a fixed draw. -/
def fixedVertexBuffer (resources : IrResources) (draw : IrDraw) : Except HandleError VertexBuffer :=
  match draw.vertexBuffer with
  | some binding => do
      let buffer ← resources.uploadedIrBuffer binding.buffer
      return ⟨buffer.resourceId, 40, binding.offset⟩
  | none => .ok ⟨resources.vertexResourceId, 40, 0⟩

/-- The view and the sampler of a fixed draw that has both a texture and a sampler. -/
def fixedSampling (resources : IrResources) (draw : IrDraw) :
    Except HandleError (Option (UInt32 × UInt32)) :=
  match draw.texture, draw.sampler with
  | some spec, some state => do
      let texture ← occupied resources.textures spec.slot
      let sampler ← occupied resources.samplers state.slot
      let view :=
        match draw.pipeline.fragment with
        | .textureAlphaMask | .textureVertexColorAlphaMask => texture.samplerViewHandle
        | _ => texture.programmableSamplerViewHandle
      return some (view, sampler.handle)
  | _, _ => .ok none

/-- What `submit_ir_target` reads of a submission. -/
structure IrSubmission where
  draws : List IrDraw
  renderArea : IrRect
  verticesLen : Nat
  depthSampleCopy : Option (Nat × UInt32)
  surfaces : List UInt32
  surfaces_le : surfaces.length ≤ 10

end Sgfx.Virgl.Draws
