import Sgfx.Library.Fallible

/-!
# Value types of the graphics IR

Rectangles, extents, colours, transforms and viewports are values a client can
only obtain from a checking constructor, so each one carries what its
constructor checked as a field.  An `f32` is kept as its bit pattern: the IR
compares, stores and transmits floating-point operands by bits, and only the
constructors' range checks look at the numeric value.

## Main Definitions

* `Error` — the recording and descriptor errors
* `F32` — an `f32` by its bits
* `Extent2D`, `PixelRect`, `Color`, `Transform`, `Viewport`
* `ByteSlice` — a borrowed `&[u8]`, as an address and a length
-/

namespace Sgfx

/-- Errors of descriptors, resource tables and command recording. -/
inductive Error where
  | invalidValue
  | bindingLayoutMismatch
  | bindGroupNotSet
  | resourceAccessConflict
  | missingBarrier
  | invalidResourceAccess
  | invalidDescriptor
  | invalidUsage
  | outOfBounds
  | overflow
  | resourceTableMismatch
  | renderPassNotActive
  | renderPassActive
  | pipelineNotSet
  | vertexBufferNotSet
  | indexBufferNotSet
  | uniformsNotSet
  | textureBindingNotSet
  | pipelineTargetMismatch
  | attachmentFeedback
  | resourceLimitExceeded
  | commandLimitExceeded
  | outOfMemory
  | renderPassStillActive
deriving DecidableEq, Repr

/-! ## Checked machine arithmetic -/

/-- `u32::checked_add`. -/
def checkedAdd32 (a b : UInt32) : Option UInt32 :=
  if a.toNat + b.toNat < 2 ^ 32 then some (a + b) else none

/-- `u32::checked_mul`. -/
def checkedMul32 (a b : UInt32) : Option UInt32 :=
  if a.toNat * b.toNat < 2 ^ 32 then some (a * b) else none

/-- `u64::checked_add`. -/
def checkedAdd64 (a b : UInt64) : Option UInt64 :=
  if a.toNat + b.toNat < 2 ^ 64 then some (a + b) else none

/-- `u64::checked_mul`. -/
def checkedMul64 (a b : UInt64) : Option UInt64 :=
  if a.toNat * b.toNat < 2 ^ 64 then some (a * b) else none

theorem checkedAdd32_eq_some {a b c : UInt32} (h : checkedAdd32 a b = some c) :
    c = a + b ∧ c.toNat = a.toNat + b.toNat := by
  unfold checkedAdd32 at h
  split at h
  · cases h
    rw [UInt32.toNat_add]
    exact ⟨rfl, Nat.mod_eq_of_lt (by assumption)⟩
  · cases h

theorem checkedAdd64_toNat {a b c : UInt64} (h : checkedAdd64 a b = some c) :
    c.toNat = a.toNat + b.toNat := by
  unfold checkedAdd64 at h
  split at h
  · cases h
    rw [UInt64.toNat_add]
    omega
  · cases h

theorem checkedAdd64_eq_some {a b c : UInt64} (h : checkedAdd64 a b = some c) :
    c = a + b ∧ c.toNat = a.toNat + b.toNat := by
  refine ⟨?_, checkedAdd64_toNat h⟩
  unfold checkedAdd64 at h
  split at h <;> cases h
  rfl

theorem checkedMul64_eq_some {a b c : UInt64} (h : checkedMul64 a b = some c) :
    c = a * b ∧ c.toNat = a.toNat * b.toNat := by
  unfold checkedMul64 at h
  split at h
  · cases h
    rw [UInt64.toNat_mul]
    exact ⟨rfl, Nat.mod_eq_of_lt (by assumption)⟩
  · cases h

/-! ## Floating-point operands -/

/-- An `f32`, by its bit pattern. -/
structure F32 where
  bits : UInt32
deriving DecidableEq, Repr

namespace F32

/-- The numeric value. -/
def value (x : F32) : Float32 := Float32.ofBits x.bits

/-- `f32::is_finite`: the exponent field is not all ones. -/
def isFinite (x : F32) : Bool := x.bits &&& 0x7f800000 != 0x7f800000

/-- The positive zero. -/
def zero : F32 := ⟨0⟩

/-- `0.0 <= x && x <= 1.0`, the source's `(0.0..=1.0).contains(&x)`. -/
def inUnitRange (x : F32) : Bool := decide (0 ≤ x.value) && decide (x.value ≤ 1)

end F32

/-! ## Extents and rectangles -/

/-- Texture or attachment dimensions, never empty. -/
structure Extent2D where
  width : UInt32
  height : UInt32
  nonempty : width ≠ 0 ∧ height ≠ 0
deriving DecidableEq

/-- `Extent2D::new`. -/
def Extent2D.new (width height : UInt32) : Except Error Extent2D :=
  if h : width ≠ 0 ∧ height ≠ 0 then .ok ⟨width, height, h⟩ else .error .invalidValue

/-- A non-empty rectangle whose right and bottom edges are representable. -/
structure PixelRect where
  x : UInt32
  y : UInt32
  width : UInt32
  height : UInt32
  valid : width ≠ 0 ∧ height ≠ 0 ∧
    x.toNat + width.toNat < 2 ^ 32 ∧ y.toNat + height.toNat < 2 ^ 32
deriving DecidableEq

namespace PixelRect

/-- `PixelRect::new`. -/
def new (x y width height : UInt32) : Except Error PixelRect :=
  if h : width ≠ 0 ∧ height ≠ 0 ∧
      x.toNat + width.toNat < 2 ^ 32 ∧ y.toNat + height.toNat < 2 ^ 32 then
    .ok ⟨x, y, width, height, h⟩
  else
    .error .invalidValue

/-- `PixelRect::is_within`. -/
def isWithin (r : PixelRect) (e : Extent2D) : Bool :=
  decide (r.x + r.width ≤ e.width) && decide (r.y + r.height ≤ e.height)

/-- `PixelRect::same_extent`. -/
def sameExtent (r s : PixelRect) : Bool := r.width == s.width && r.height == s.height

/-- `CommandEncoder::rectangles_overlap`. -/
def overlaps (left right : PixelRect) : Bool :=
  decide (left.x < right.x + right.width) && decide (right.x < left.x + left.width) &&
    decide (left.y < right.y + right.height) && decide (right.y < left.y + left.height)

theorem new_self (r : PixelRect) : new r.x r.y r.width r.height = .ok r :=
  dif_pos r.valid

end PixelRect

/-! ## Colours, transforms and viewports -/

/-- A finite RGBA colour. -/
structure Color where
  red : F32
  green : F32
  blue : F32
  alpha : F32
  finite : [red, green, blue, alpha].all F32.isFinite = true
deriving DecidableEq

/-- `Color::rgba`. -/
def Color.rgba (red green blue alpha : F32) : Except Error Color :=
  if h : [red, green, blue, alpha].all F32.isFinite = true then
    .ok ⟨red, green, blue, alpha, h⟩
  else
    .error .invalidValue

/-- A finite column-major 4×4 transform. -/
structure Transform where
  columns : Vector F32 16
  finite : columns.all F32.isFinite = true
deriving DecidableEq

/-- `Transform::from_columns`. -/
def Transform.fromColumns (columns : Vector F32 16) : Except Error Transform :=
  if h : columns.all F32.isFinite = true then .ok ⟨columns, h⟩ else .error .invalidValue

/-- Transform and colour uniforms of one fixed-function draw. -/
structure DrawUniforms where
  transform : Transform
  color : Color
deriving DecidableEq

/-- The range checks of `Viewport::new`. -/
def viewportValid (x y width height minDepth maxDepth : F32) : Bool :=
  [x, y, width, height, minDepth, maxDepth].all F32.isFinite &&
    !decide (x.value < 0) && !decide (y.value < 0) && !decide (width.value ≤ 0) &&
    (⟨(y.value + height.value).toBits⟩ : F32).isFinite &&
    minDepth.inUnitRange && maxDepth.inUnitRange

/-- A viewport; the height may be negative, which flips it. -/
structure Viewport where
  x : F32
  y : F32
  width : F32
  height : F32
  minDepth : F32
  maxDepth : F32
  valid : viewportValid x y width height minDepth maxDepth = true
deriving DecidableEq

namespace Viewport

/-- `Viewport::new`. -/
def new (x y width height minDepth maxDepth : F32) : Except Error Viewport :=
  if h : viewportValid x y width height minDepth maxDepth = true then
    .ok ⟨x, y, width, height, minDepth, maxDepth, h⟩
  else
    .error .invalidValue

/-- `Viewport::is_within`. -/
def isWithin (v : Viewport) (e : Extent2D) : Bool :=
  let bottom := v.y.value + v.height.value
  decide (v.x.value + v.width.value ≤ e.width.toFloat32) &&
    decide (0 ≤ (if v.y.value ≤ bottom then v.y.value else bottom)) &&
    decide ((if v.y.value ≤ bottom then bottom else v.y.value) ≤ e.height.toFloat32)

end Viewport

/-! ## Borrowed bytes -/

/-- A borrowed `&[u8]`: a non-null address and a length of at most
`isize::MAX`, which is what the language guarantees of every slice. -/
structure ByteSlice where
  data : UInt64
  len : UInt64
  nonNull : data ≠ 0
  len_le : len.toNat < 2 ^ 63
deriving DecidableEq

end Sgfx
