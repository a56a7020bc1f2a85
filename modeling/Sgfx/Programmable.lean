import Sgfx.Pipelines

/-!
# Shaders, bindings and programmable pipelines

The values behind programmable passes: shader modules with their declared entry
points, descriptor-set layouts, the resources bound to them, and the compute and
graphics pipelines that name a layout.

A shader module's declared entry points are parsed out of its SPIR-V words, so
`ShaderModuleDesc` carries the fact that they are the ones its source declares.

## Main Definitions

* `ShaderModuleDesc`, `ShaderEntryPoint`
* `BindingType`, `BindGroupLayoutDesc`, `PipelineLayoutDesc`
* `TextureViewDesc`, `BindingResource`, `BindGroupDesc`
* `ComputePipelineDesc`, `ProgrammableRenderPipelineDesc`
* `BufferAccess`, `TextureAccess`, `ResourceBarrier`
-/

namespace Sgfx

/-! ## Shader stages and modules -/

/-- One shader stage. -/
inductive ShaderStage where
  | vertex
  | fragment
  | compute
deriving DecidableEq, Repr

/-- A set of shader stages, one flag each. -/
structure ShaderStages where
  vertex : Bool
  fragment : Bool
  compute : Bool
deriving DecidableEq, Repr

namespace ShaderStages

/-- `ShaderStages::empty`. -/
def empty : ShaderStages := ⟨false, false, false⟩

def VERTEX : ShaderStages := ⟨true, false, false⟩
def FRAGMENT : ShaderStages := ⟨false, true, false⟩
def COMPUTE : ShaderStages := ⟨false, false, true⟩

/-- `ShaderStages::is_empty`. -/
def isEmpty (s : ShaderStages) : Bool := !s.vertex && !s.fragment && !s.compute

/-- `ShaderStages::contains`. -/
def contains (self other : ShaderStages) : Bool :=
  (!other.vertex || self.vertex) && (!other.fragment || self.fragment) &&
    (!other.compute || self.compute)

/-- `ShaderStages::union`. -/
def union (self other : ShaderStages) : ShaderStages :=
  ⟨self.vertex || other.vertex, self.fragment || other.fragment, self.compute || other.compute⟩

/-- Whether one stage is in the set. -/
def has (s : ShaderStages) : ShaderStage → Bool
  | .vertex => s.vertex
  | .fragment => s.fragment
  | .compute => s.compute

end ShaderStages

/-- Shader source text or words. -/
inductive ShaderSource where
  | spirV (words : List UInt32)
  | wgsl (source : String)
deriving DecidableEq

/-- An entry point declared by a SPIR-V module. -/
structure DeclaredEntryPoint where
  stage : ShaderStage
  name : String
deriving DecidableEq

/-- The little-endian bytes of one SPIR-V word. -/
def wordBytes (word : UInt32) : List UInt8 :=
  [word.toUInt8, (word >>> 8).toUInt8, (word >>> 16).toUInt8, (word >>> 24).toUInt8]

/-- The name loop of `parse_entry_point`: bytes up to the first NUL, whose word
must be padded with NULs and be followed by interface ids below `bound`. -/
def parseName (name : List UInt8) (bound : UInt32) : List UInt32 → Except Error String
  | [] => .error .invalidDescriptor
  | word :: rest =>
      let bytes := wordBytes word
      let upToNul := bytes.takeWhile (· != 0)
      if upToNul.length = bytes.length then
        parseName (name ++ bytes) bound rest
      else
        let full := name ++ upToNul
        if full.isEmpty || (bytes.drop upToNul.length).any (· != 0) ||
            rest.any (fun id => id == 0 || decide (bound ≤ id)) then
          .error .invalidDescriptor
        else
          okOr (String.fromUTF8? ⟨full.toArray⟩) .invalidDescriptor

/-- `parse_entry_point`: one `OpEntryPoint` instruction. -/
def parseEntryPoint (instruction : List UInt32) (bound : UInt32) :
    Except Error DeclaredEntryPoint :=
  match instruction with
  | _ :: model :: id :: first :: interface =>
      if id == 0 || decide (bound ≤ id) then
        .error .invalidDescriptor
      else
        match model.toNat with
        | 0 => (parseName [] bound (first :: interface)).map (⟨.vertex, ·⟩)
        | 4 => (parseName [] bound (first :: interface)).map (⟨.fragment, ·⟩)
        | 5 => (parseName [] bound (first :: interface)).map (⟨.compute, ·⟩)
        | _ => .error .invalidDescriptor
  | _ => .error .invalidDescriptor

/-- The instruction loop of `ShaderModuleDesc::spirv`; every instruction takes
at least one word, so `fuel = words.length` walks the whole list. -/
def parseInstructions (bound : UInt32) :
    (fuel : Nat) → List UInt32 → Except Error (List DeclaredEntryPoint)
  | _, [] => .ok []
  | 0, _ :: _ => .error .invalidDescriptor
  | fuel + 1, word :: rest =>
      let count := (word >>> 16).toNat
      if count = 0 ∨ rest.length + 1 < count then
        .error .invalidDescriptor
      else if (word &&& 0xffff) = 15 then do
        let entry ← parseEntryPoint ((word :: rest).take count) bound
        let later ← parseInstructions bound fuel ((word :: rest).drop count)
        pure (entry :: later)
      else
        parseInstructions bound fuel ((word :: rest).drop count)

/-- Maximum SPIR-V words in a module. -/
def MAX_SPIRV_WORDS : Nat := 2 ^ 20

/-- Maximum WGSL bytes in a module. -/
def MAX_WGSL_BYTES : Nat := 2 ^ 22

/-- `ShaderModuleDesc::spirv`, as the entry points it finds. -/
def parseSpirV (words : List UInt32) : Except Error (List DeclaredEntryPoint) :=
  if MAX_SPIRV_WORDS < words.length then
    .error .resourceLimitExceeded
  else
    match words with
    | magic :: version :: _ :: bound :: schema :: instructions =>
        if magic ≠ 0x07230203 ∨ (version &&& 0xff0000ff) ≠ 0 ∨ version >>> 16 ≠ 1 ∨
            (6 : UInt32) < ((version >>> 8) &&& 0xff) ∨ bound = 0 ∨ 0x003fffff < bound ∨ schema ≠ 0 then
          .error .invalidDescriptor
        else
          parseInstructions bound instructions.length instructions
    | _ => .error .invalidDescriptor

/-- `char::is_whitespace`: the Unicode `White_Space` property. -/
def isWhitespace (c : Char) : Bool :=
  let n := c.toNat
  (9 ≤ n && n ≤ 13) || n == 0x20 || n == 0x85 || n == 0xa0 || n == 0x1680 ||
    (0x2000 ≤ n && n ≤ 0x200a) || n == 0x2028 || n == 0x2029 || n == 0x202f || n == 0x205f ||
    n == 0x3000

/-- `ShaderModuleDesc::wgsl`, which declares no entry points. -/
def checkWgsl (source : String) : Except Error (List DeclaredEntryPoint) :=
  if MAX_WGSL_BYTES < source.utf8ByteSize then
    .error .resourceLimitExceeded
  else if source.toList.all isWhitespace || source.toList.contains (Char.ofNat 0) then
    .error .invalidDescriptor
  else
    .ok []

/-- The entry points a source declares, or why it is not a module. -/
def ShaderSource.entryPoints : ShaderSource → Except Error (List DeclaredEntryPoint)
  | .spirV words => parseSpirV words
  | .wgsl source => checkWgsl source

/-- Validated shader module. -/
structure ShaderModuleDesc where
  source : ShaderSource
  entryPoints : List DeclaredEntryPoint
  declared : source.entryPoints = .ok entryPoints

instance : DecidableEq ShaderModuleDesc := fun a b =>
  if h : a.source = b.source ∧ a.entryPoints = b.entryPoints then
    .isTrue (by cases a; cases b; cases h.1; cases h.2; rfl)
  else
    .isFalse (by rintro rfl; exact h ⟨rfl, rfl⟩)

/-- `ShaderModuleDesc::has_entry_point`. -/
def ShaderModuleDesc.hasEntryPoint (d : ShaderModuleDesc) (stage : ShaderStage)
    (name : String) : Bool :=
  match d.source with
  | .spirV _ => d.entryPoints.any fun entry => entry.stage == stage && entry.name == name
  | .wgsl _ => !name.isEmpty && !name.toList.contains (Char.ofNat 0)

/-- A shader module and a stage-specific entry point. -/
structure ShaderEntryPoint where
  module : ShaderModuleId
  stage : ShaderStage
  entryPoint : String
deriving DecidableEq

/-! ## Layouts -/

/-- Maximum descriptor sets in a pipeline layout. -/
def MAX_BIND_GROUPS : Nat := 4

/-- Maximum bindings in a descriptor set. -/
def MAX_BINDINGS_PER_GROUP : Nat := 32

/-- Maximum portable push-constant byte range. -/
def MAX_PUSH_CONSTANT_BYTES : Nat := 128

/-- Maximum colour outputs of a pass or pipeline. -/
def MAX_COLOR_ATTACHMENTS : Nat := 8

/-- A byte range visible to one or more shader stages. -/
structure PushConstantRange where
  stages : ShaderStages
  offset : UInt32
  size : UInt32
  valid : stages.isEmpty = false ∧ size ≠ 0 ∧ offset % 4 = 0 ∧ size % 4 = 0 ∧
    offset.toNat + size.toNat ≤ MAX_PUSH_CONSTANT_BYTES
deriving DecidableEq

/-- Supported storage texture access. -/
inductive StorageTextureAccess where
  | writeOnly
deriving DecidableEq, Repr

/-- Coordinate interpretation of a view. -/
inductive TextureViewDimension where
  | d1
  | d1Array
  | d2
  | d2Array
  | cube
deriving DecidableEq, Repr

/-- Resource type declared at a shader binding. -/
inductive BindingType where
  | uniformBuffer
  | storageBuffer (readOnly : Bool)
  | sampledTexture
  | sampledTextureView (dimension : TextureViewDimension) (depth : Bool)
  | sampler
  | comparisonSampler
  | storageTexture (format : TextureFormat) (access : StorageTextureAccess)
deriving DecidableEq, Repr

/-- `binding_writes`: whether shaders may write through the binding. -/
def bindingWrites : BindingType → Bool
  | .storageBuffer false | .storageTexture _ _ => true
  | _ => false

/-- One binding number and its stage visibility. -/
structure BindGroupLayoutEntry where
  binding : UInt32
  visibility : ShaderStages
  ty : BindingType
deriving DecidableEq

/-- The checks of `BindGroupLayoutDesc::new` on sorted entries. -/
def groupLayoutValid (entries : List BindGroupLayoutEntry) : Prop :=
  entries.length ≤ MAX_BINDINGS_PER_GROUP ∧
    entries.Pairwise (fun a b => a.binding < b.binding) ∧
    ∀ e ∈ entries, e.binding.toNat < MAX_BINDINGS_PER_GROUP ∧ e.visibility ≠ .empty ∧
      ∀ format access, e.ty = .storageTexture format access → format = .rgba8Unorm

/-- Canonically ordered immutable descriptor-set layout. -/
structure BindGroupLayoutDesc where
  entries : List BindGroupLayoutEntry
  valid : groupLayoutValid entries

instance : DecidableEq BindGroupLayoutDesc := fun a b =>
  decidable_of_iff (a.entries = b.entries) (by cases a; cases b; simp)

/-- Ordered descriptor sets shared by pipeline shader stages. -/
structure PipelineLayoutDesc where
  bindGroups : List BindGroupLayoutDesc
  pushConstantRanges : List PushConstantRange
  groups_le : bindGroups.length ≤ MAX_BIND_GROUPS
deriving DecidableEq

/-- `PipelineLayoutDesc::validate_push_constants`; `size` is `data.len()`. -/
def PipelineLayoutDesc.validatePushConstants (layout : PipelineLayoutDesc)
    (stages : ShaderStages) (offset : UInt32) (data : ByteSlice) : Except Error Unit := do
  failIf (stages.isEmpty = true ∨ data.len = 0 ∨ offset % 4 ≠ 0 ∨ data.len % 4 ≠ 0)
    .invalidValue
  failIf (2 ^ 32 ≤ data.len.toNat) .overflow
  failIf (2 ^ 32 ≤ offset.toNat + data.len.toNat) .overflow
  failIf (MAX_PUSH_CONSTANT_BYTES < offset.toNat + data.len.toNat) .outOfBounds
  forEach [ShaderStage.vertex, .fragment, .compute] fun stage =>
    failIf (stages.has stage = true ∧ ¬ layout.pushConstantRanges.any (fun range =>
        range.stages.has stage && decide (range.offset ≤ offset) &&
          decide (offset.toNat + data.len.toNat ≤ range.offset.toNat + range.size.toNat)))
      .bindingLayoutMismatch
  failIf (layout.pushConstantRanges.any fun range =>
      decide (offset.toNat < range.offset.toNat + range.size.toNat) &&
        decide (range.offset.toNat < offset.toNat + data.len.toNat) &&
          !stages.contains range.stages)
    .bindingLayoutMismatch

/-! ## Bound resources -/

/-- A format and subresource selection, independent of allocation identity. -/
structure TextureViewDesc where
  format : TextureFormat
  dimension : TextureViewDimension
  baseMipLevel : UInt32
  mipLevelCount : UInt32
  baseArrayLayer : UInt32
  arrayLayerCount : UInt32
deriving DecidableEq

namespace TextureViewDesc

/-- The levels `base_mip_level()..base_mip_level() + mip_level_count()`, a sum
that `validate` has checked. -/
def mips (view : TextureViewDesc) : List UInt32 :=
  (List.range view.mipLevelCount.toNat).map fun k => view.baseMipLevel + .ofNat k

/-- `TextureViewDesc::validate`. -/
def validate (view : TextureViewDesc) (texture : TextureDesc) : Except Error Unit := do
  failIf (texture.format.viewCompatible view.format = false ∨
      texture.dimension1d ≠ (view.dimension == .d1 || view.dimension == .d1Array))
    .invalidDescriptor
  failIf (view.mipLevelCount = 0 ∨ view.arrayLayerCount = 0 ∨
      texture.mipLevelCount.toNat < view.baseMipLevel.toNat + view.mipLevelCount.toNat ∨
      texture.arrayLayerCount.toNat < view.baseArrayLayer.toNat + view.arrayLayerCount.toNat)
    .outOfBounds
  match view.dimension with
  | .d1 | .d2 => failIf (view.arrayLayerCount ≠ 1) .invalidDescriptor
  | .cube =>
      failIf (view.arrayLayerCount ≠ 6 ∨ texture.extent.width ≠ texture.extent.height)
        .invalidDescriptor
  | .d1Array | .d2Array => .ok ()

/-- `TextureViewDesc::new`. -/
def new (texture : TextureDesc) (view : TextureViewDesc) : Except Error TextureViewDesc :=
  (view.validate texture).map fun _ => view

end TextureViewDesc

/-- An owned resource identity and optional byte range used by one binding. -/
inductive BindingResource where
  | buffer (buffer : BufferId) (offset size : UInt64)
  | texture (texture : TextureId)
  | textureView (texture : TextureId) (view : TextureViewDesc)
  | sampler (sampler : SamplerId)
deriving DecidableEq

/-- `resource_alias`: whether two bindings name one allocation. -/
def resourceAlias : BindingResource → BindingResource → Bool
  | .buffer a _ _, .buffer b _ _ => a == b
  | .texture a, .texture b | .texture a, .textureView b _ => a == b
  | .textureView a _, .texture b | .textureView a _, .textureView b _ => a == b
  | _, _ => false

/-- One concrete binding number and resource. -/
structure BindGroupEntry where
  binding : UInt32
  resource : BindingResource
deriving DecidableEq

/-- An immutable set of resources for one layout; the table validates it. -/
structure BindGroupDesc where
  layout : BindGroupLayoutDesc
  entries : List BindGroupEntry
deriving DecidableEq

/-! ## Pipelines -/

/-- A compute entry point and its descriptor-set interface. -/
structure ComputePipelineDesc where
  shader : ShaderEntryPoint
  layout : PipelineLayoutDesc
  stage : shader.stage = .compute
deriving DecidableEq

/-- What the constructors of a programmable pipeline establish together. -/
def programmableValid (vertex fragment : ShaderEntryPoint) (targetFormat : TextureFormat)
    (vertexBuffers : List VertexBufferLayout) (depth : Option DepthState)
    (additionalTargets : List ColorTargetState) : Prop :=
  vertex.stage = .vertex ∧ fragment.stage = .fragment ∧ targetFormat ≠ .depth32Float ∧
    vertexBuffers.length ≤ MAX_VERTEX_BUFFERS ∧ (∀ d ∈ depth, d.format = .depth32Float) ∧
    additionalTargets.length < MAX_COLOR_ATTACHMENTS

/-- Programmable graphics with up to eight colour targets and vertex buffers. -/
structure ProgrammableRenderPipelineDesc where
  vertex : ShaderEntryPoint
  fragment : ShaderEntryPoint
  layout : PipelineLayoutDesc
  targetFormat : TextureFormat
  vertexBuffers : List VertexBufferLayout
  topology : PrimitiveTopology
  blend : BlendState
  raster : RasterState
  depth : Option DepthState
  colorWriteMask : ColorWriteMask
  additionalTargets : List ColorTargetState
  valid : programmableValid vertex fragment targetFormat vertexBuffers depth additionalTargets
deriving DecidableEq

/-- The output formats of `ProgrammableRenderPipelineDesc::color_targets`. -/
def ProgrammableRenderPipelineDesc.colorFormats (d : ProgrammableRenderPipelineDesc) :
    List TextureFormat :=
  d.targetFormat :: d.additionalTargets.map ColorTargetState.format

/-! ## Access scopes and barriers -/

/-- Whole-buffer access scope. -/
inductive BufferAccess where
  | copyDestination
  | copySource
  | vertex
  | index
  | uniform
  | storageRead
  | storageReadWrite
deriving DecidableEq, Repr

/-- `BufferAccess::usage`. -/
def BufferAccess.usage : BufferAccess → BufferUsage
  | copyDestination => .COPY_DST
  | copySource => .COPY_SRC
  | vertex => .VERTEX
  | index => .INDEX
  | uniform => .UNIFORM
  | storageRead | storageReadWrite => .STORAGE

/-- Texture access scope. -/
inductive TextureAccess where
  | copyDestination
  | copySource
  | sampled
  | renderAttachment
  | storageWrite
deriving DecidableEq, Repr

/-- `TextureAccess::usage`. -/
def TextureAccess.usage : TextureAccess → TextureUsage
  | copyDestination => .COPY_DST
  | copySource => .COPY_SRC
  | sampled => .SAMPLED
  | renderAttachment => .RENDER_ATTACHMENT
  | storageWrite => .STORAGE

/-- An explicit execution and memory dependency between whole-resource
accesses. -/
inductive ResourceBarrier where
  | global
  | buffer (buffer : BufferId) (before after : BufferAccess)
  | texture (texture : TextureId) (before after : TextureAccess)
  | textureMip (texture : TextureId) (mipLevel : UInt32) (before after : TextureAccess)
deriving DecidableEq

end Sgfx
