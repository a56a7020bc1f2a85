import Sgfx.Library.RowCopies
import Sgfx.Vulkan.Results
import Sgfx.Vulkan.UploadBatches

/-!
# Image readback

The pixels of one level of an image are copied into a buffer, row by row of a selected rectangle.
Regions are checked when they are recorded: afterwards no index is outside the pixels or the buffer.
Sizes of memory have 64 bits.

## Main Definitions

* `BufferImageCopy`, `ImageReadbackRegion.withAspect`
* `ImageReadbackRegion.destinationRanges`, `ImageReadbackRegion.writes`
-/

namespace Sgfx.Vulkan

/-- `vk::Offset3D`. -/
structure Offset3D where
  x : Int32
  y : Int32
  z : Int32

/-- `vk::Extent3D`. -/
structure Extent3D where
  width : UInt32
  height : UInt32
  depth : UInt32

/-- `vk::ImageSubresourceLayers`. -/
structure ImageSubresourceLayers where
  aspectMask : UInt32
  mipLevel : UInt32
  baseArrayLayer : UInt32
  layerCount : UInt32

/-- `vk::BufferImageCopy`. -/
structure BufferImageCopy where
  bufferOffset : UInt64
  bufferRowLength : UInt32
  bufferImageHeight : UInt32
  imageSubresource : ImageSubresourceLayers
  imageOffset : Offset3D
  imageExtent : Extent3D

/-- `ImageReadbackRegion`: the region of the packed level, and where its rows are written. -/
structure ImageReadbackRegion where
  fullSize : UInt64
  sourceOffset : UInt64
  sourceStride : UInt64
  rowBytes : UInt64
  rows : UInt64
  destinationOffset : UInt64
  destinationStride : UInt64
deriving DecidableEq

/-- `u32::try_from` of an `i32`. -/
def tryFromInt32 (i : Int32) : Option UInt32 :=
  if 0 ≤ i.toInt then some (.ofNat i.toInt.toNat) else none

/-- `u32::checked_add`, which must not exceed a limit. -/
def within (start size limit : UInt32) : Bool :=
  match checkedAdd32 start size with
  | some stop => decide (stop ≤ limit)
  | none => false

/-- The sizes of a pixel. -/
def pixelSizes : List UInt32 := [1, 2, 4, 8, 16]

/-- The checked numbers of `with_aspect`, after the region has been found inside the image. -/
def ImageReadbackRegion.layout (extent : Extent3D) (bytesPerPixel : UInt32) (bufferSize : UInt64)
    (region : BufferImageCopy) (x y destinationWidth : UInt32) : Option ImageReadbackRegion := do
  let bpp := bytesPerPixel.toUInt64
  let sourceStride ← checkedMul64 extent.width.toUInt64 bpp
  let fullSize ← checkedMul64 sourceStride extent.height.toUInt64
  let row ← checkedMul64 y.toUInt64 sourceStride
  let sourceOffset ← checkedAdd64 row (x.toUInt64 * bpp)
  let rowBytes ← checkedMul64 region.imageExtent.width.toUInt64 bpp
  let destinationStride ← checkedMul64 destinationWidth.toUInt64 bpp
  let tail ← checkedMul64 destinationStride (region.imageExtent.height - 1).toUInt64
  let length ← checkedAdd64 tail rowBytes
  let stop ← checkedAdd64 region.bufferOffset length
  if bufferSize < stop then none
  else some {
    fullSize
    sourceOffset
    sourceStride
    rowBytes
    rows := region.imageExtent.height.toUInt64
    destinationOffset := region.bufferOffset
    destinationStride }

/-- `ImageReadbackRegion::with_aspect`. -/
def ImageReadbackRegion.withAspect (extent : Extent3D) (bytesPerPixel : UInt32) (bufferSize : UInt64)
    (region : BufferImageCopy) (aspect : UInt32) : Except VkResult ImageReadbackRegion := do
  let invalid := VkResult.errorInitializationFailed
  failIf (region.imageSubresource.aspectMask ≠ aspect ∨ region.imageSubresource.baseArrayLayer ≠ 0 ∨
      region.imageSubresource.layerCount ≠ 1 ∨ extent.depth ≠ 1 ∨ region.imageExtent.depth ≠ 1 ∨
      region.imageOffset.z ≠ 0)
    VkResult.errorFeatureNotPresent
  let x ← okOr (tryFromInt32 region.imageOffset.x) invalid
  let y ← okOr (tryFromInt32 region.imageOffset.y) invalid
  let width := region.imageExtent.width
  let height := region.imageExtent.height
  failIf (bytesPerPixel ∉ pixelSizes ∨ width = 0 ∨ height = 0 ∨ within x width extent.width = false ∨
      within y height extent.height = false ∨ region.bufferOffset % bytesPerPixel.toUInt64 ≠ 0) invalid
  let destinationWidth := if region.bufferRowLength = 0 then width else region.bufferRowLength
  failIf (destinationWidth < width ∨
      (region.bufferImageHeight ≠ 0 ∧ region.bufferImageHeight < height)) invalid
  okOr (layout extent bytesPerPixel bufferSize region x y destinationWidth) invalid

/-- `ImageReadbackRegion::destination_ranges`. -/
def ImageReadbackRegion.destinationRanges (r : ImageReadbackRegion) : List (UInt64 × UInt64) :=
  (List.range r.rows.toNat).map fun row =>
    let start := r.destinationOffset + .ofNat row * r.destinationStride
    (start, start + r.rowBytes)

theorem part_length {pixels : Payload} {start stop : Nat} (_ : start ≤ stop ∧ stop ≤ pixels.bytes.length) :
    ((pixels.bytes.drop start).take (stop - start)).length < 2 ^ 63 := by
  rw [List.length_take, List.length_drop]
  have bounded := pixels.length_lt
  omega

/-- `pixels[start..stop].to_vec()`; nothing where that is out of bounds. -/
def part (place : Placement) (pixels : Payload) (start stop : Nat) : Option Payload :=
  if h : start ≤ stop ∧ stop ≤ pixels.bytes.length then
    some ⟨(pixels.bytes.drop start).take (stop - start),
      (place ((pixels.bytes.drop start).take (stop - start))).1,
      (place ((pixels.bytes.drop start).take (stop - start))).2, part_length h⟩
  else none

namespace ImageReadbackRegion

/-- One write of all rows. -/
def packedWrite (place : Placement) (r : ImageReadbackRegion) (pixels : Payload) (buffer : BufferId) :
    Option (List OwnedCommand) := do
  let stop := r.sourceOffset + r.rows * r.rowBytes
  let data ← part place pixels r.sourceOffset.toNat stop.toNat
  pure [.writeBuffer buffer r.destinationOffset data]

/-- The write of one row. -/
def rowWrite (place : Placement) (r : ImageReadbackRegion) (pixels : Payload) (buffer : BufferId)
    (row : Nat) : Option OwnedCommand := do
  let start := r.sourceOffset + .ofNat row * r.sourceStride
  let data ← part place pixels start.toNat (start + r.rowBytes).toNat
  pure (.writeBuffer buffer (r.destinationOffset + .ofNat row * r.destinationStride) data)

/-- One write for each row. -/
def rowWrites (place : Placement) (r : ImageReadbackRegion) (pixels : Payload) (buffer : BufferId) :
    Option (List OwnedCommand) :=
  (List.range r.rows.toNat).mapM (r.rowWrite place pixels buffer)

/-- `ImageReadbackRegion::writes`; nothing where an index is out of bounds. -/
def writes (place : Placement) (r : ImageReadbackRegion) (pixels : Payload) (buffer : BufferId) :
    Except VkResult (Option (List OwnedCommand)) :=
  if pixels.len ≠ r.fullSize.toNat then .error .errorDeviceLost
  else if r.sourceStride = r.rowBytes ∧ r.destinationStride = r.rowBytes then
    .ok (r.packedWrite place pixels buffer)
  else .ok (r.rowWrites place pixels buffer)

end ImageReadbackRegion

end Sgfx.Vulkan
