import Sgfx.Types

/-!
# Resource descriptors and identities

Textures, buffers and samplers are described by immutable values that the
resource table stores and hands back.  A descriptor's builder methods check one
property each; the properties together are `TextureDesc.Valid` and
`BufferDesc.valid`, kept as a field so that a descriptor that no sequence of
builder calls produces cannot be written down.

A table-branded reference (`TextureRef`, `BufferRef`, …) and the persistent
identity it converts to carry the same three numbers — the owning table, the
slot and the slot's generation — and are one type here.

## Main Definitions

* `TextureFormat`, `TextureUsage`, `TextureDesc`
* `BufferUsage`, `BufferDesc`, `SamplerDesc`
* `Id` — generational identity of one resource category
* `TextureWrite` — one upload into a texture
-/

namespace Sgfx

/-! ## Textures -/

/-- Portable texture pixel formats. -/
inductive TextureFormat where
  | bgra8Unorm
  | bgra8UnormSrgb
  | rgba8Unorm
  | rgba8UnormSrgb
  | r8Unorm
  | rg8Unorm
  | nv12
  | depth32Float
  | rgba16Float
  | rgba32Float
deriving DecidableEq, Repr

namespace TextureFormat

/-- `TextureFormat::bytes_per_pixel`. -/
def bytesPerPixel : TextureFormat → Option UInt32
  | bgra8Unorm | rgba8Unorm | bgra8UnormSrgb | rgba8UnormSrgb | depth32Float => some 4
  | rgba16Float => some 8
  | rgba32Float => some 16
  | r8Unorm => some 1
  | rg8Unorm => some 2
  | nv12 => none

/-- `TextureFormat::blit_compatible`. -/
def blitCompatible : TextureFormat → TextureFormat → Bool
  | rgba8Unorm, rgba8Unorm | rgba8Unorm, bgra8Unorm => true
  | bgra8Unorm, rgba8Unorm | bgra8Unorm, bgra8Unorm => true
  | rgba16Float, rgba16Float => true
  | rgba32Float, rgba32Float => true
  | r8Unorm, r8Unorm => true
  | rg8Unorm, rg8Unorm => true
  | r8Unorm, rgba8Unorm | r8Unorm, bgra8Unorm => true
  | rg8Unorm, rgba8Unorm | rg8Unorm, bgra8Unorm => true
  | _, _ => false

/-- `TextureFormat::view_compatible`. -/
def viewCompatible : TextureFormat → TextureFormat → Bool
  | bgra8Unorm, bgra8Unorm | bgra8Unorm, bgra8UnormSrgb => true
  | bgra8UnormSrgb, bgra8Unorm | bgra8UnormSrgb, bgra8UnormSrgb => true
  | rgba8Unorm, rgba8Unorm | rgba8Unorm, rgba8UnormSrgb => true
  | rgba8UnormSrgb, rgba8Unorm | rgba8UnormSrgb, rgba8UnormSrgb => true
  | rgba16Float, rgba16Float => true
  | rgba32Float, rgba32Float => true
  | r8Unorm, r8Unorm => true
  | rg8Unorm, rg8Unorm => true
  | depth32Float, depth32Float => true
  | _, _ => false

end TextureFormat

/-- Allowed texture operations, one flag each. -/
structure TextureUsage where
  sampled : Bool
  renderAttachment : Bool
  copySrc : Bool
  copyDst : Bool
  present : Bool
  storage : Bool
deriving DecidableEq, Repr

namespace TextureUsage

/-- `TextureUsage::empty`. -/
def empty : TextureUsage := ⟨false, false, false, false, false, false⟩

def SAMPLED : TextureUsage := { empty with sampled := true }
def RENDER_ATTACHMENT : TextureUsage := { empty with renderAttachment := true }
def COPY_SRC : TextureUsage := { empty with copySrc := true }
def COPY_DST : TextureUsage := { empty with copyDst := true }
def PRESENT : TextureUsage := { empty with present := true }
def STORAGE : TextureUsage := { empty with storage := true }

/-- `TextureUsage::contains`: every flag of `other` is set. -/
def contains (self other : TextureUsage) : Bool :=
  (!other.sampled || self.sampled) && (!other.renderAttachment || self.renderAttachment) &&
    (!other.copySrc || self.copySrc) && (!other.copyDst || self.copyDst) &&
    (!other.present || self.present) && (!other.storage || self.storage)

/-- `TextureUsage::union`. -/
def union (self other : TextureUsage) : TextureUsage where
  sampled := self.sampled || other.sampled
  renderAttachment := self.renderAttachment || other.renderAttachment
  copySrc := self.copySrc || other.copySrc
  copyDst := self.copyDst || other.copyDst
  present := self.present || other.present
  storage := self.storage || other.storage

end TextureUsage

/-- Number of levels in a complete mip chain: `max(width, height).ilog2() + 1`. -/
def Extent2D.fullMipCount (e : Extent2D) : Nat :=
  Nat.log2 (max e.width.toNat e.height.toNat) + 1

/-- What the builder methods of `TextureDesc` establish together. -/
structure TextureDesc.Valid (format : TextureFormat) (extent : Extent2D) (usage : TextureUsage)
    (mips layers : UInt32) (cube dimension1d : Bool) : Prop where
  nv12 : format = .nv12 → usage = .SAMPLED
  used : usage ≠ .empty
  storage : usage.storage = true → format = .rgba8Unorm
  depth : format = .depth32Float → usage.present = false ∧ usage.storage = false
  mips_le : mips ≠ 0 ∧ mips.toNat ≤ extent.fullMipCount
  mipped : 1 < mips → format ≠ .depth32Float ∧ format ≠ .nv12 ∧ usage.present = false
  layers_le : layers ≠ 0 ∧ layers ≤ 2048
  layered : layers ≠ 1 → usage.present = false ∧ format ≠ .nv12
  cubic : cube = true → dimension1d = false ∧ 6 ≤ layers ∧ extent.width = extent.height
  flat : dimension1d = true → extent.height = 1 ∧ format ≠ .nv12 ∧ usage.present = false

instance TextureDesc.decidableValid (format : TextureFormat) (extent : Extent2D)
    (usage : TextureUsage) (mips layers : UInt32) (cube dimension1d : Bool) :
    Decidable (TextureDesc.Valid format extent usage mips layers cube dimension1d) :=
  decidable_of_iff
    ((format = .nv12 → usage = .SAMPLED) ∧ usage ≠ .empty ∧
      (usage.storage = true → format = .rgba8Unorm) ∧
      (format = .depth32Float → usage.present = false ∧ usage.storage = false) ∧
      (mips ≠ 0 ∧ mips.toNat ≤ extent.fullMipCount) ∧
      (1 < mips → format ≠ .depth32Float ∧ format ≠ .nv12 ∧ usage.present = false) ∧
      (layers ≠ 0 ∧ layers ≤ 2048) ∧
      (layers ≠ 1 → usage.present = false ∧ format ≠ .nv12) ∧
      (cube = true → dimension1d = false ∧ 6 ≤ layers ∧ extent.width = extent.height) ∧
      (dimension1d = true → extent.height = 1 ∧ format ≠ .nv12 ∧ usage.present = false))
    ⟨fun ⟨a, b, c, d, e, f, g, h, i, j⟩ => ⟨a, b, c, d, e, f, g, h, i, j⟩,
      fun ⟨a, b, c, d, e, f, g, h, i, j⟩ => ⟨a, b, c, d, e, f, g, h, i, j⟩⟩

/-- Validated descriptor of a logical texture. -/
structure TextureDesc where
  format : TextureFormat
  extent : Extent2D
  usage : TextureUsage
  mipLevelCount : UInt32
  arrayLayerCount : UInt32
  cubeCompatible : Bool
  dimension1d : Bool
  valid : TextureDesc.Valid format extent usage mipLevelCount arrayLayerCount
    cubeCompatible dimension1d
deriving DecidableEq

/-- A clamped dimension is never zero. -/
theorem UInt32.max_one_ne_zero (x : UInt32) : max x 1 ≠ 0 := by
  change (if x ≤ 1 then (1 : UInt32) else x) ≠ 0
  split
  · decide
  · rename_i large
    rintro rfl
    exact large (by decide)

namespace TextureDesc

/-- A descriptor whose fields pass every builder's check; each builder below
changes one field of `self` and answers with this check. -/
def checked (format : TextureFormat) (extent : Extent2D) (usage : TextureUsage)
    (mips layers : UInt32) (cube dimension1d : Bool) : Except Error TextureDesc :=
  if h : Valid format extent usage mips layers cube dimension1d then
    .ok ⟨format, extent, usage, mips, layers, cube, dimension1d, h⟩
  else
    .error .invalidDescriptor

/-- `TextureDesc::new`: one mip level, one layer. -/
def new (format : TextureFormat) (extent : Extent2D) (usage : TextureUsage) :
    Except Error TextureDesc :=
  checked format extent usage 1 1 false false

/-- `TextureDesc::with_mip_level_count`. -/
def withMipLevelCount (d : TextureDesc) (count : UInt32) : Except Error TextureDesc :=
  checked d.format d.extent d.usage count d.arrayLayerCount d.cubeCompatible d.dimension1d

/-- `TextureDesc::with_array_layer_count`. -/
def withArrayLayerCount (d : TextureDesc) (count : UInt32) : Except Error TextureDesc :=
  checked d.format d.extent d.usage d.mipLevelCount count d.cubeCompatible d.dimension1d

/-- `TextureDesc::with_cube_compatible`. -/
def withCubeCompatible (d : TextureDesc) (compatible : Bool) : Except Error TextureDesc :=
  checked d.format d.extent d.usage d.mipLevelCount d.arrayLayerCount compatible d.dimension1d

/-- `TextureDesc::with_dimension_1d`. -/
def withDimension1d (d : TextureDesc) (dimension1d : Bool) : Except Error TextureDesc :=
  checked d.format d.extent d.usage d.mipLevelCount d.arrayLayerCount d.cubeCompatible dimension1d

/-- `TextureDesc::mip_extent`: the dimensions of a declared level. -/
def mipExtent (d : TextureDesc) (level : UInt32) : Except Error Extent2D :=
  if d.mipLevelCount ≤ level then
    .error .outOfBounds
  else
    .ok ⟨max (d.extent.width >>> level) 1, max (d.extent.height >>> level) 1,
      UInt32.max_one_ne_zero _, UInt32.max_one_ne_zero _⟩

/-- The declared levels `0..mip_level_count()`. -/
def mipLevels (d : TextureDesc) : List UInt32 :=
  (List.range d.mipLevelCount.toNat).map .ofNat

theorem mem_mipLevels {d : TextureDesc} {level : UInt32} :
    level ∈ d.mipLevels ↔ level.toNat < d.mipLevelCount.toNat := by
  unfold mipLevels
  rw [List.mem_map]
  constructor
  · rintro ⟨k, hk, rfl⟩
    have bound := d.mipLevelCount.toNat_lt
    rw [List.mem_range] at hk
    rw [UInt32.toNat_ofNat']
    omega
  · intro h
    exact ⟨level.toNat, List.mem_range.mpr h, UInt32.ofNat_toNat⟩

theorem mipLevels_nodup (d : TextureDesc) : d.mipLevels.Nodup := by
  rw [mipLevels, List.Nodup, List.pairwise_map]
  refine List.nodup_range.imp_of_mem fun {k k'} hk hk' hne heq => hne ?_
  have bound := d.mipLevelCount.toNat_lt
  rw [List.mem_range] at hk hk'
  have := congrArg UInt32.toNat heq
  rw [UInt32.toNat_ofNat', UInt32.toNat_ofNat'] at this
  omega

/-- Only a declared level has dimensions. -/
theorem declared_of_mipExtent {d : TextureDesc} {level : UInt32} {e : Extent2D}
    (h : d.mipExtent level = .ok e) : level.toNat < d.mipLevelCount.toNat := by
  unfold mipExtent at h
  split at h
  · cases h
  · rename_i declared
    rw [UInt32.not_le] at declared
    exact UInt32.lt_iff_toNat_lt.mp declared

/-- Every declared level has dimensions. -/
theorem mipExtent_of_declared {d : TextureDesc} {level : UInt32}
    (h : level.toNat < d.mipLevelCount.toNat) : ∃ e, d.mipExtent level = .ok e := by
  unfold mipExtent
  rw [if_neg (UInt32.not_le.mpr (UInt32.lt_iff_toNat_lt.mpr h))]
  exact ⟨_, rfl⟩

end TextureDesc

/-! ## Buffers and samplers -/

/-- Allowed buffer operations, one flag each. -/
structure BufferUsage where
  vertex : Bool
  index : Bool
  copySrc : Bool
  copyDst : Bool
  uniform : Bool
  storage : Bool
deriving DecidableEq, Repr

namespace BufferUsage

/-- `BufferUsage::empty`. -/
def empty : BufferUsage := ⟨false, false, false, false, false, false⟩

def VERTEX : BufferUsage := { empty with vertex := true }
def INDEX : BufferUsage := { empty with index := true }
def COPY_SRC : BufferUsage := { empty with copySrc := true }
def COPY_DST : BufferUsage := { empty with copyDst := true }
def UNIFORM : BufferUsage := { empty with uniform := true }
def STORAGE : BufferUsage := { empty with storage := true }

/-- `BufferUsage::contains`: every flag of `other` is set. -/
def contains (self other : BufferUsage) : Bool :=
  (!other.vertex || self.vertex) && (!other.index || self.index) &&
    (!other.copySrc || self.copySrc) && (!other.copyDst || self.copyDst) &&
    (!other.uniform || self.uniform) && (!other.storage || self.storage)

/-- `BufferUsage::union`. -/
def union (self other : BufferUsage) : BufferUsage where
  vertex := self.vertex || other.vertex
  index := self.index || other.index
  copySrc := self.copySrc || other.copySrc
  copyDst := self.copyDst || other.copyDst
  uniform := self.uniform || other.uniform
  storage := self.storage || other.storage

end BufferUsage

/-- Validated descriptor of a logical buffer. -/
structure BufferDesc where
  size : UInt64
  usage : BufferUsage
  valid : size ≠ 0 ∧ usage ≠ .empty
deriving DecidableEq

/-- `BufferDesc::new`. -/
def BufferDesc.new (size : UInt64) (usage : BufferUsage) : Except Error BufferDesc :=
  if h : size ≠ 0 ∧ usage ≠ .empty then .ok ⟨size, usage, h⟩ else .error .invalidDescriptor

/-- Texture filtering mode. -/
inductive FilterMode where
  | nearest
  | linear
deriving DecidableEq, Repr

/-- Texture coordinate addressing mode. -/
inductive AddressMode where
  | clampToEdge
  | repeat
  | mirrorRepeat
  | clampToBorder
deriving DecidableEq, Repr

/-- Depth or sampler comparison. -/
inductive CompareFunction where
  | never
  | less
  | equal
  | lessEqual
  | greater
  | notEqual
  | greaterEqual
  | always
deriving DecidableEq, Repr

/-- Portable logical sampler descriptor. -/
structure SamplerDesc where
  minFilter : FilterMode
  magFilter : FilterMode
  addressU : AddressMode
  addressV : AddressMode
  mipFilter : FilterMode
  minLodBits : UInt32
  maxLodBits : UInt32
  compare : Option CompareFunction
  anisotropy : UInt8
deriving DecidableEq

/-! ## Identities -/

/-- The resource categories whose identities carry a generation. -/
inductive Category where
  | texture
  | buffer
  | bindGroup
  | shaderModule
  | computePipeline
  | programmablePipeline
deriving DecidableEq, Repr

/-- Table-qualified identity of one resource: owning table, slot, generation. -/
structure Id (category : Category) where
  owner : UInt64
  index : UInt64
  generation : UInt64
deriving DecidableEq, Repr

abbrev TextureId := Id .texture
abbrev BufferId := Id .buffer
abbrev BindGroupId := Id .bindGroup
abbrev ShaderModuleId := Id .shaderModule
abbrev ComputePipelineId := Id .computePipeline
abbrev ProgrammableRenderPipelineId := Id .programmablePipeline

/-- Identity of a sampler, whose slots are never reused. -/
structure SamplerId where
  owner : UInt64
  index : UInt64
deriving DecidableEq, Repr

/-- Identity of a fixed-function render pipeline, whose slots are never reused. -/
structure RenderPipelineId where
  owner : UInt64
  index : UInt64
deriving DecidableEq, Repr

/-- `PartialEq for BufferRef`, which compares the owner and the slot but not the
generation. -/
def BufferId.refEq (a b : BufferId) : Bool := a.owner == b.owner && a.index == b.index

/-! ## Texture uploads -/

/-- Borrowed pixel data and layout for one texture upload. -/
structure TextureWrite where
  destination : PixelRect
  bytesPerRow : UInt32
  data : ByteSlice
  mipLevel : UInt32
  arrayLayer : UInt32
  stride_ne : bytesPerRow ≠ 0
deriving DecidableEq

/-- `TextureWrite::new` with `with_mip_level` and `with_array_layer`. -/
def TextureWrite.new (destination : PixelRect) (bytesPerRow : UInt32) (data : ByteSlice)
    (mipLevel arrayLayer : UInt32) : Except Error TextureWrite :=
  if h : bytesPerRow ≠ 0 then
    .ok ⟨destination, bytesPerRow, data, mipLevel, arrayLayer, h⟩
  else
    .error .invalidValue

end Sgfx
