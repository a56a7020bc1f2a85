import Sgfx.Abi.Scalars
import Sgfx.Descriptors

/-!
# Textures and buffers on the wire

The row of a texture descriptor holds its format, extent, usage, mip levels, layers and
whether it is cube compatible, and is decoded by the builders that construct one, in a fixed
order.  Whether a texture has one dimension is not written, so a row reads back as the
descriptor with two.

## Main Definitions

* `textureFormat`, `textureUsage`, `extent2D`
* `textureDesc`, `bufferDesc` — the rows
* `TextureDesc.Built` — what the builders construct

## Main Results

* `textureDesc_reads` — what a row reads back as
* `textureDesc_get_iff` — when that is the descriptor that was written
-/

namespace Sgfx

namespace TextureDesc

/-- The descriptors that `new` and the builder methods construct, in any order. -/
inductive Built : TextureDesc → Prop
  | new {format : TextureFormat} {extent : Extent2D} {usage : TextureUsage} {d : TextureDesc}
      (h : TextureDesc.new format extent usage = .ok d) : Built d
  | withMipLevelCount {d d' : TextureDesc} {count : UInt32} (built : Built d)
      (h : d.withMipLevelCount count = .ok d') : Built d'
  | withArrayLayerCount {d d' : TextureDesc} {count : UInt32} (built : Built d)
      (h : d.withArrayLayerCount count = .ok d') : Built d'
  | withCubeCompatible {d d' : TextureDesc} {compatible : Bool} (built : Built d)
      (h : d.withCubeCompatible compatible = .ok d') : Built d'
  | withDimension1d {d d' : TextureDesc} {dimension1d : Bool} (built : Built d)
      (h : d.withDimension1d dimension1d = .ok d') : Built d'

variable {format : TextureFormat} {extent : Extent2D} {usage : TextureUsage} {mips layers : UInt32}
  {cube dimension1d : Bool}

/-- One level is always there. -/
theorem Valid.one_mip (h : Valid format extent usage mips layers cube dimension1d) :
    Valid format extent usage 1 layers cube dimension1d :=
  { h with
    mips_le := ⟨by decide, Nat.succ_le_succ (Nat.zero_le _)⟩
    mipped := fun hlt => absurd hlt (by decide) }

theorem Valid.not_cube (h : Valid format extent usage mips layers cube dimension1d) :
    Valid format extent usage mips layers false dimension1d :=
  { h with cubic := fun hcube => absurd hcube Bool.false_ne_true }

theorem Valid.one_layer (h : Valid format extent usage mips layers false dimension1d) :
    Valid format extent usage mips 1 false dimension1d :=
  { h with
    layers_le := ⟨by decide, by decide⟩
    layered := fun hne => absurd rfl hne
    cubic := fun hcube => absurd hcube Bool.false_ne_true }

theorem Valid.two_dimensional (h : Valid format extent usage mips layers cube dimension1d) :
    Valid format extent usage mips layers cube false :=
  { h with
    cubic := fun hcube => ⟨rfl, (h.cubic hcube).2⟩
    flat := fun hflat => absurd hflat Bool.false_ne_true }

theorem checked_of_valid (h : Valid format extent usage mips layers cube dimension1d) :
    checked format extent usage mips layers cube dimension1d =
      .ok ⟨format, extent, usage, mips, layers, cube, dimension1d, h⟩ := dif_pos h

/-- The same allocation with two-dimensional coordinates. -/
def twoDimensional (d : TextureDesc) : TextureDesc :=
  ⟨d.format, d.extent, d.usage, d.mipLevelCount, d.arrayLayerCount, d.cubeCompatible, false,
    d.valid.two_dimensional⟩

theorem twoDimensional_eq_iff (d : TextureDesc) : d.twoDimensional = d ↔ d.dimension1d = false := by
  constructor
  · intro h
    rw [← h]
    rfl
  · intro h
    obtain ⟨format, extent, usage, mips, layers, cube, dimension1d, valid⟩ := d
    subst h
    rfl

/-- There are no other descriptors. -/
theorem built (d : TextureDesc) : Built d := by
  have hnew := d.valid.two_dimensional.not_cube.one_layer.one_mip
  have hmips := d.valid.two_dimensional.not_cube.one_layer
  have hlayers := d.valid.two_dimensional.not_cube
  have hcube := d.valid.two_dimensional
  have hbuilt : Built d.twoDimensional :=
    (((Built.new (checked_of_valid hnew)).withMipLevelCount
      (checked_of_valid hmips)).withArrayLayerCount
        (checked_of_valid hlayers)).withCubeCompatible (checked_of_valid hcube)
  exact hbuilt.withDimension1d (checked_of_valid d.valid)

end TextureDesc

namespace Abi

/-! ## Rows -/

/-- The ABI numbers of the formats. -/
def textureFormats : List TextureFormat :=
  [.bgra8Unorm, .bgra8UnormSrgb, .rgba8Unorm, .rgba8UnormSrgb, .r8Unorm, .nv12, .depth32Float,
    .rg8Unorm, .rgba16Float, .rgba32Float]

def textureFormat : RowCodec TextureFormat := enumeration textureFormats

theorem textureFormat_readsBack (format : TextureFormat) : textureFormat.ReadsBack format := by
  refine enumeration_readsBack ?_ (by decide)
  cases format <;> decide

/-- The usages in the order of their bits. -/
def usageFlags (usage : TextureUsage) : List Bool :=
  [usage.copySrc, usage.copyDst, usage.sampled, usage.renderAttachment, usage.present,
    usage.storage]

def textureUsage : RowCodec TextureUsage where
  put usage := (flags 6).put (usageFlags usage)
  get := do
    let set ← (flags 6).get
    pure
      { copySrc := set.getD 0 false
        copyDst := set.getD 1 false
        sampled := set.getD 2 false
        renderAttachment := set.getD 3 false
        present := set.getD 4 false
        storage := set.getD 5 false }

theorem textureUsage_readsBack (usage : TextureUsage) : textureUsage.ReadsBack usage := by
  have hfew : (usageFlags usage).length ≤ 64 := Nat.le_of_ble_eq_true rfl
  have hflags : (flags 6).ReadsBack (usageFlags usage) := flags_reads hfew
  exact hflags.bind_pure rfl

def extent2D : RowCodec Extent2D where
  put extent := u32.put extent.width ++ u32.put extent.height
  get := do
    let width ← u32.get
    let height ← u32.get
    liftM (Extent2D.new width height)

theorem extent2D_readsBack (extent : Extent2D) : extent2D.ReadsBack extent :=
  (u32_readsBack extent.width).bind ((u32_readsBack extent.height).bind_lift
    (dif_pos extent.nonempty))

/-- `Codec for TextureDesc`. -/
def textureDesc : RowCodec TextureDesc where
  put d := textureFormat.put d.format ++ (extent2D.put d.extent ++ (textureUsage.put d.usage ++
    (u32.put d.mipLevelCount ++ (u32.put d.arrayLayerCount ++ bool.put d.cubeCompatible))))
  get := do
    let format ← textureFormat.get
    let extent ← extent2D.get
    let usage ← textureUsage.get
    let d ← liftM (TextureDesc.new format extent usage)
    let mips ← u32.get
    let d ← liftM (d.withMipLevelCount mips)
    let layers ← u32.get
    let d ← liftM (d.withArrayLayerCount layers)
    let cube ← bool.get
    liftM (d.withCubeCompatible cube)

/-- Every builder accepts its part, and none of them is told of the dimension. -/
theorem textureDesc_reads (d : TextureDesc) :
    Reads textureDesc.get (textureDesc.put d) d.twoDimensional := by
  have hcube := d.valid.two_dimensional
  have hlayers := hcube.not_cube
  have hmips := hlayers.one_layer
  have hnew := hmips.one_mip
  refine (textureFormat_readsBack d.format).bind ((extent2D_readsBack d.extent).bind
    ((textureUsage_readsBack d.usage).bind (.lift_bind (TextureDesc.checked_of_valid hnew) ?_)))
  refine (u32_readsBack d.mipLevelCount).bind
    (.lift_bind (TextureDesc.checked_of_valid hmips) ?_)
  refine (u32_readsBack d.arrayLayerCount).bind
    (.lift_bind (TextureDesc.checked_of_valid hlayers) ?_)
  exact (bool_readsBack d.cubeCompatible).bind_lift (TextureDesc.checked_of_valid hcube)

/-- The builders construct every descriptor, and it is decoded from its own row exactly if it has
two dimensions. -/
theorem textureDesc_get_iff (d : TextureDesc) :
    d.Built ∧ (textureDesc.get (textureDesc.put d) = (.ok d, []) ↔ d.dimension1d = false) := by
  refine ⟨d.built, ?_⟩
  rw [(textureDesc_reads d).whole, Prod.mk.injEq, Except.ok.injEq,
    TextureDesc.twoDimensional_eq_iff, and_iff_left rfl]

/-! ## Buffers -/

/-- The usages in the order of their bits. -/
def bufferUsageFlags (usage : BufferUsage) : List Bool :=
  [usage.copySrc, usage.copyDst, usage.vertex, usage.index, usage.uniform, usage.storage]

def bufferUsage : RowCodec BufferUsage where
  put usage := (flags 6).put (bufferUsageFlags usage)
  get := do
    let set ← (flags 6).get
    pure
      { copySrc := set.getD 0 false
        copyDst := set.getD 1 false
        vertex := set.getD 2 false
        index := set.getD 3 false
        uniform := set.getD 4 false
        storage := set.getD 5 false }

/-- `record!(BufferDesc)`. -/
def bufferDesc : RowCodec BufferDesc where
  put d := u64.put d.size ++ bufferUsage.put d.usage
  get := do
    let size ← u64.get
    let usage ← bufferUsage.get
    liftM (BufferDesc.new size usage)

theorem bufferUsage_canonical : bufferUsage.Canonical := by
  intro words rest usage h
  obtain ⟨set, hset, rfl⟩ := Fallible.bind_pure_eq_ok.mp h
  have hlength := flags_length hset
  rw [flags_canonical hset]
  match set, hlength with
  | [_, _, _, _, _, _], _ => rfl

/-- Buffers are written as they were read. -/
theorem bufferDesc_canonical : bufferDesc.Canonical := by
  intro words rest d h
  obtain ⟨size, afterSize, hsize, hrest⟩ := Fallible.bind_eq_ok.mp h
  obtain ⟨usage, afterUsage, husage, hnew⟩ := Fallible.bind_eq_ok.mp hrest
  rw [u64_canonical hsize, bufferUsage_canonical husage]
  rw [Fallible.lift_run, Prod.mk.injEq] at hnew
  obtain ⟨hnew, rfl⟩ := hnew
  unfold BufferDesc.new at hnew
  split at hnew
  · cases hnew
    rfl
  · cases hnew

/-! ## A texture of one dimension -/

theorem lineExtent_nonempty : (4 : UInt32) ≠ 0 ∧ (1 : UInt32) ≠ 0 := by decide

def lineExtent : Extent2D := ⟨4, 1, lineExtent_nonempty⟩

theorem line_valid :
    TextureDesc.Valid .rgba8Unorm lineExtent .SAMPLED 1 1 false true := by decide

/-- Four texels in a row, for sampling with one coordinate. -/
def line : TextureDesc := ⟨.rgba8Unorm, lineExtent, .SAMPLED, 1, 1, false, true, line_valid⟩

/-- Its row is decoded as a texture of two dimensions. -/
theorem textureDesc_not_get :
    ¬ ∀ d : TextureDesc, d.Built → textureDesc.get (textureDesc.put d) = (.ok d, []) := by
  intro h
  have hget := h line line.built
  rw [(textureDesc_reads line).whole, Prod.mk.injEq, Except.ok.injEq] at hget
  exact absurd ((line.twoDimensional_eq_iff).mp hget.1) (by decide)

end Abi

end Sgfx
