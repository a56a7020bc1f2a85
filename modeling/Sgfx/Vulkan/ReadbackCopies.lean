import Sgfx.Vulkan.ImageReadback

/-!
# Copies of an image readback

The writes of an accepted region are inside the buffer, read inside the pixels, and copy each texel
of the selected rectangle to its place, one row at a time or all at once.

## Main Definitions

* `ImageReadbackRegion.copy` — the rows of a region
* `ImageReadbackRegion.Describes` — what the checks of a region establish
* `written` — the pieces that writes of a buffer copy
* `ImageReadbackRegion.Copies` — what is in the buffer afterwards

## Main Results

* `ImageReadbackRegion.describes_withAspect`
* `ImageReadbackRegion.writes_copies`
-/

namespace Sgfx.Vulkan

/-- The first column of a region. -/
def BufferImageCopy.column (region : BufferImageCopy) : Nat := region.imageOffset.x.toInt.toNat

/-- The first line of a region. -/
def BufferImageCopy.line (region : BufferImageCopy) : Nat := region.imageOffset.y.toInt.toNat

/-- The columns of a region in the buffer, with those that pad it. -/
def BufferImageCopy.destinationWidth (region : BufferImageCopy) : Nat :=
  if region.bufferRowLength = 0 then region.imageExtent.width.toNat else region.bufferRowLength.toNat

/-- What a write of a buffer copies. -/
def writtenBy : OwnedCommand → Option Piece
  | .writeBuffer _ offset data => some ⟨offset.toNat, data.bytes⟩
  | _ => none

/-- What writes of a buffer copy. -/
def written (commands : List OwnedCommand) : List Piece := commands.filterMap writtenBy

namespace ImageReadbackRegion

/-- The rows that are copied. -/
def copy (r : ImageReadbackRegion) : RowCopy where
  sourceStart := r.sourceOffset.toNat
  sourceStride := r.sourceStride.toNat
  targetStart := r.destinationOffset.toNat
  targetStride := r.destinationStride.toNat
  rowBytes := r.rowBytes.toNat
  rows := r.rows.toNat

/-- The rectangle is inside the image, its rows are inside the buffer, and the numbers of the region
have not overflowed. -/
structure Describes (extent : Extent3D) (bytesPerPixel : UInt32) (bufferSize : UInt64)
    (region : BufferImageCopy) (r : ImageReadbackRegion) : Prop where
  pixel : 0 < bytesPerPixel.toNat
  height : 0 < region.imageExtent.height.toNat
  wide : region.column + region.imageExtent.width.toNat ≤ extent.width.toNat
  tall : region.line + region.imageExtent.height.toNat ≤ extent.height.toNat
  tight : region.imageExtent.width.toNat ≤ region.destinationWidth
  fullSize : r.fullSize.toNat = extent.width.toNat * bytesPerPixel.toNat * extent.height.toNat
  sourceStride : r.sourceStride.toNat = extent.width.toNat * bytesPerPixel.toNat
  sourceOffset : r.sourceOffset.toNat =
    region.line * (extent.width.toNat * bytesPerPixel.toNat) + region.column * bytesPerPixel.toNat
  rowBytes : r.rowBytes.toNat = region.imageExtent.width.toNat * bytesPerPixel.toNat
  rows : r.rows.toNat = region.imageExtent.height.toNat
  destinationOffset : r.destinationOffset = region.bufferOffset
  destinationStride : r.destinationStride.toNat = region.destinationWidth * bytesPerPixel.toNat
  inside : region.bufferOffset.toNat + (r.destinationStride.toNat *
    (region.imageExtent.height.toNat - 1) + r.rowBytes.toNat) ≤ bufferSize.toNat

section Checks

variable {extent : Extent3D} {bytesPerPixel aspect : UInt32} {bufferSize : UInt64}
  {region : BufferImageCopy} {r : ImageReadbackRegion}

theorem tryFromInt32_toNat {i : Int32} {x : UInt32} (h : tryFromInt32 i = some x) :
    x.toNat = i.toInt.toNat := by
  unfold tryFromInt32 at h
  split at h
  · cases h
    have bound := i.toInt_lt
    exact UInt32.toNat_ofNat_of_lt' (by show i.toInt.toNat < 2 ^ 32; omega)
  · cases h

theorem within_le {start size limit : UInt32} (h : within start size limit = true) :
    start.toNat + size.toNat ≤ limit.toNat := by
  unfold within checkedAdd32 at h
  by_cases small : start.toNat + size.toNat < 2 ^ 32
  · rw [if_pos small] at h
    have le := UInt32.le_iff_toNat_le.mp (of_decide_eq_true h)
    rwa [UInt32.toNat_add, Nat.mod_eq_of_lt small] at le
  · rw [if_neg small] at h
    cases h

theorem pixel_pos {size : UInt32} (h : size ∈ pixelSizes) : 0 < size.toNat ∧ size.toNat ≤ 16 := by
  simp only [pixelSizes, List.mem_cons, List.not_mem_nil, or_false] at h
  rcases h with rfl | rfl | rfl | rfl | rfl <;> decide

/-- The numbers of an accepted region. -/
theorem describes_layout {x y destinationWidth : UInt32} (pixel : bytesPerPixel ∈ pixelSizes)
    (hx : x.toNat = region.column) (hy : y.toNat = region.line)
    (width : destinationWidth.toNat = region.destinationWidth)
    (height : region.imageExtent.height ≠ 0)
    (wide : x.toNat + region.imageExtent.width.toNat ≤ extent.width.toNat)
    (tall : y.toNat + region.imageExtent.height.toNat ≤ extent.height.toNat)
    (tight : region.imageExtent.width.toNat ≤ destinationWidth.toNat)
    (h : layout extent bytesPerPixel bufferSize region x y destinationWidth = some r) :
    r.Describes extent bytesPerPixel bufferSize region := by
  unfold layout at h
  simp only [Option.bind_eq_bind, Option.bind_eq_some_iff] at h
  obtain ⟨sourceStride, hstride, fullSize, hfull, row, hrow, sourceOffset, hoffset, rowBytes, hbytes,
    destinationStride, hpitch, tail, htail, length, hlength, stop, hstop, h⟩ := h
  split at h
  · cases h
  rename_i room
  cases h
  obtain ⟨positive, small⟩ := pixel_pos pixel
  have lines : 0 < region.imageExtent.height.toNat :=
    Nat.pos_of_ne_zero fun zero => height (UInt32.toNat_inj.mp zero)
  have before : (region.imageExtent.height - 1).toUInt64.toNat =
      region.imageExtent.height.toNat - 1 := by
    have one : (1 : UInt32) ≤ region.imageExtent.height := UInt32.le_iff_toNat_le.mpr lines
    rw [UInt32.toNat_toUInt64, UInt32.toNat_sub_of_le _ _ one]
    rfl
  have skipped : (x.toUInt64 * bytesPerPixel.toUInt64).toNat = x.toNat * bytesPerPixel.toNat := by
    have product : x.toNat * bytesPerPixel.toNat ≤ 2 ^ 32 * 16 :=
      Nat.mul_le_mul (Nat.le_of_lt x.toNat_lt) small
    rw [UInt64.toNat_mul, UInt32.toNat_toUInt64, UInt32.toNat_toUInt64]
    exact Nat.mod_eq_of_lt (Nat.lt_of_le_of_lt product (by decide))
  have hstride := (checkedMul64_eq_some hstride).2
  have hfull := (checkedMul64_eq_some hfull).2
  have hrow := (checkedMul64_eq_some hrow).2
  have hoffset := checkedAdd64_toNat hoffset
  have hbytes := (checkedMul64_eq_some hbytes).2
  have hpitch := (checkedMul64_eq_some hpitch).2
  have htail := (checkedMul64_eq_some htail).2
  have hlength := checkedAdd64_toNat hlength
  have hstop := checkedAdd64_toNat hstop
  simp only [UInt32.toNat_toUInt64] at hstride hfull hrow hbytes hpitch
  have le : stop.toNat ≤ bufferSize.toNat :=
    Nat.le_of_not_lt fun lt => room (UInt64.lt_iff_toNat_lt.mpr lt)
  refine ⟨positive, lines, hx ▸ wide, hy ▸ tall, width ▸ tight, ?_, hstride, ?_, hbytes,
    UInt32.toNat_toUInt64 _, rfl, ?_, ?_⟩
  · rw [hfull, hstride]
  · rw [hoffset, hrow, hstride, skipped, hx, hy]
  · rw [hpitch, width]
  · rw [hstop, hlength, htail, before] at le
    exact le

/-- What an accepted region establishes. -/
theorem describes_withAspect
    (h : withAspect extent bytesPerPixel bufferSize region aspect = .ok r) :
    r.Describes extent bytesPerPixel bufferSize region := by
  unfold withAspect at h
  simp only [except_bind_eq_ok, failIf_eq_ok, okOr_eq_ok] at h
  obtain ⟨_, -, x, hx, y, hy, _, inside, _, pitch, h⟩ := h
  simp only [not_or, Decidable.not_not, Bool.not_eq_false] at inside
  obtain ⟨pixel, -, height, wide, tall, -⟩ := inside
  have tight := UInt32.not_lt.mp fun lt => pitch (.inl lt)
  refine describes_layout pixel (tryFromInt32_toNat hx) (tryFromInt32_toNat hy) ?_ height
    (within_le wide) (within_le tall) (UInt32.le_iff_toNat_le.mp tight) h
  unfold BufferImageCopy.destinationWidth
  split
  · rfl
  · rfl

end Checks

/-! ## Rows -/

section Rows

variable {extent : Extent3D} {bytesPerPixel : UInt32} {bufferSize : UInt64}
  {region : BufferImageCopy} {r : ImageReadbackRegion} {row : Nat}

/-- The rows of an accepted region are inside the pixels and inside the buffer. -/
theorem Describes.fits (h : r.Describes extent bytesPerPixel bufferSize region) :
    r.copy.Fits r.fullSize.toNat bufferSize.toNat := by
  refine ⟨?_, ?_, ?_⟩
  · intro row hrow
    have hrow : row < region.imageExtent.height.toNat := h.rows ▸ hrow
    have columns := Nat.mul_le_mul_right bytesPerPixel.toNat h.wide
    have lines : (region.line + row + 1) * (extent.width.toNat * bytesPerPixel.toNat) ≤
        extent.height.toNat * (extent.width.toNat * bytesPerPixel.toNat) :=
      Nat.mul_le_mul_right _ (by have tall := h.tall; omega)
    rw [Nat.succ_mul, Nat.add_mul] at lines
    rw [Nat.add_mul] at columns
    have size : r.fullSize.toNat = extent.height.toNat * (extent.width.toNat * bytesPerPixel.toNat) := by
      rw [h.fullSize, Nat.mul_comm]
    show r.sourceOffset.toNat + row * r.sourceStride.toNat + r.rowBytes.toNat ≤ r.fullSize.toNat
    rw [h.sourceOffset, h.sourceStride, h.rowBytes, size]
    omega
  · intro row hrow
    have hrow : row < region.imageExtent.height.toNat := h.rows ▸ hrow
    have last : row * r.destinationStride.toNat ≤
        r.destinationStride.toNat * (region.imageExtent.height.toNat - 1) := by
      rw [Nat.mul_comm]
      exact Nat.mul_le_mul_left _ (by omega)
    have inside := h.inside
    show r.destinationOffset.toNat + row * r.destinationStride.toNat + r.rowBytes.toNat ≤
      bufferSize.toNat
    rw [h.destinationOffset]
    omega
  · show r.rowBytes.toNat ≤ r.destinationStride.toNat
    rw [h.rowBytes, h.destinationStride]
    exact Nat.mul_le_mul_right _ h.tight

/-- A place inside a range of 64 bits has not overflowed. -/
theorem place_toNat (start stride size limit : UInt64) (index : row < 2 ^ 64)
    (inside : start.toNat + row * stride.toNat + size.toNat ≤ limit.toNat) :
    (start + .ofNat row * stride).toNat = start.toNat + row * stride.toNat ∧
      (start + .ofNat row * stride + size).toNat = start.toNat + row * stride.toNat + size.toNat := by
  have bound := limit.toNat_lt
  have product : (UInt64.ofNat row * stride).toNat = row * stride.toNat := by
    rw [UInt64.toNat_mul, UInt64.toNat_ofNat_of_lt' index, Nat.mod_eq_of_lt (by omega)]
  have first : (start + .ofNat row * stride).toNat = start.toNat + row * stride.toNat := by
    rw [UInt64.toNat_add, product, Nat.mod_eq_of_lt (by omega)]
  refine ⟨first, ?_⟩
  rw [UInt64.toNat_add, first, Nat.mod_eq_of_lt (by omega)]

theorem Describes.targetRow (h : r.Describes extent bytesPerPixel bufferSize region)
    (hrow : row < r.rows.toNat) :
    (r.destinationOffset + .ofNat row * r.destinationStride).toNat = r.copy.targetRow row ∧
      (r.destinationOffset + .ofNat row * r.destinationStride + r.rowBytes).toNat =
        r.copy.targetRow row + r.copy.rowBytes :=
  place_toNat _ _ _ _ (Nat.lt_trans hrow r.rows.toNat_lt) (h.fits.target row hrow)

theorem Describes.sourceRow (h : r.Describes extent bytesPerPixel bufferSize region)
    (hrow : row < r.rows.toNat) :
    (r.sourceOffset + .ofNat row * r.sourceStride).toNat = r.copy.sourceRow row ∧
      (r.sourceOffset + .ofNat row * r.sourceStride + r.rowBytes).toNat =
        r.copy.sourceRow row + r.copy.rowBytes :=
  place_toNat _ _ _ _ (Nat.lt_trans hrow r.rows.toNat_lt) (h.fits.source row hrow)

/-- The ranges of an accepted region are its rows. -/
theorem Describes.mem_destinationRanges (h : r.Describes extent bytesPerPixel bufferSize region)
    {range : UInt64 × UInt64} (member : range ∈ r.destinationRanges) :
    ∃ row < r.rows.toNat, range.1.toNat = r.copy.targetRow row ∧
      range.2.toNat = r.copy.targetRow row + r.copy.rowBytes := by
  obtain ⟨row, hrow, rfl⟩ := List.mem_map.mp member
  have hrow := List.mem_range.mp hrow
  exact ⟨row, hrow, h.targetRow hrow⟩

end Rows

/-! ## Writes -/

section Writes

variable {extent : Extent3D} {bytesPerPixel : UInt32} {bufferSize : UInt64}
  {region : BufferImageCopy} {r : ImageReadbackRegion} {place : Placement} {pixels : Payload}
  {buffer : BufferId} {row : Nat}

theorem part_eq (place : Placement) {start stop : Nat} (order : start ≤ stop)
    (inside : stop ≤ pixels.bytes.length) :
    ∃ data, part place pixels start stop = some data ∧
      data.bytes = (pixels.bytes.drop start).take (stop - start) :=
  ⟨_, dif_pos ⟨order, inside⟩, rfl⟩

theorem Describes.fits_pixels (h : r.Describes extent bytesPerPixel bufferSize region)
    (full : pixels.len = r.fullSize.toNat) {target : List UInt8}
    (room : bufferSize.toNat ≤ target.length) : r.copy.Fits pixels.bytes.length target.length := by
  have size : pixels.bytes.length = r.fullSize.toNat := full
  refine ⟨fun row hrow => ?_, fun row hrow => ?_, h.fits.tight⟩
  · rw [size]
    exact h.fits.source row hrow
  · exact Nat.le_trans (h.fits.target row hrow) room

/-- The write of a row is inside the pixels, and copies the row. -/
theorem Describes.rowWrite (h : r.Describes extent bytesPerPixel bufferSize region)
    (full : pixels.len = r.fullSize.toNat) (hrow : row < r.rows.toNat) :
    ∃ c, r.rowWrite place pixels buffer row = some c ∧
      writtenBy c = some (r.copy.piece pixels.bytes row) := by
  obtain ⟨start, stop⟩ := h.sourceRow hrow
  have inside : r.copy.sourceRow row + r.copy.rowBytes ≤ pixels.bytes.length := by
    rw [show pixels.bytes.length = r.fullSize.toNat from full]
    exact h.fits.source row hrow
  obtain ⟨data, hdata, bytes⟩ := part_eq place (Nat.le_add_right _ _) inside
  refine ⟨.writeBuffer buffer (r.destinationOffset + .ofNat row * r.destinationStride) data, ?_, ?_⟩
  · unfold ImageReadbackRegion.rowWrite
    dsimp only
    rw [stop, start, hdata]
    rfl
  · rw [writtenBy, (h.targetRow hrow).1, bytes, Nat.add_sub_cancel_left]
    rfl

/-- The writes of some rows copy these rows. -/
theorem Describes.mapM_rowWrite (h : r.Describes extent bytesPerPixel bufferSize region)
    (full : pixels.len = r.fullSize.toNat) {rows : List Nat} (hrows : ∀ row ∈ rows, row < r.rows.toNat) :
    ∃ commands, rows.mapM (r.rowWrite place pixels buffer) = some commands ∧
      written commands = rows.map (r.copy.piece pixels.bytes) := by
  induction rows with
  | nil => exact ⟨[], rfl, rfl⟩
  | cons row rest ih =>
    obtain ⟨c, hc, first⟩ : ∃ c, r.rowWrite place pixels buffer row = some c ∧
        writtenBy c = some (r.copy.piece pixels.bytes row) :=
      h.rowWrite full (hrows row List.mem_cons_self)
    obtain ⟨commands, made, later⟩ := ih fun other member => hrows other (List.mem_cons_of_mem _ member)
    refine ⟨c :: commands, ?_, ?_⟩
    · rw [List.mapM_cons, hc, made]
      rfl
    · rw [List.map_cons, ← later]
      exact List.filterMap_cons_some first

/-- One write for each row copies the rows. -/
theorem Describes.rowWrites (h : r.Describes extent bytesPerPixel bufferSize region)
    (full : pixels.len = r.fullSize.toNat) :
    ∃ commands, r.rowWrites place pixels buffer = some commands ∧
      written commands = r.copy.pieces pixels.bytes :=
  h.mapM_rowWrite full fun _ member => List.mem_range.mp member

theorem Describes.rows_pos (h : r.Describes extent bytesPerPixel bufferSize region) :
    0 < r.copy.rows :=
  Nat.lt_of_lt_of_eq h.height h.rows.symm

/-- One write of rows without gaps copies them at once. -/
theorem Describes.packedWrite (h : r.Describes extent bytesPerPixel bufferSize region)
    (full : pixels.len = r.fullSize.toNat) (gapless : r.copy.Gapless) :
    ∃ commands, r.packedWrite place pixels buffer = some commands ∧
      written commands = [r.copy.packed pixels.bytes] := by
  have inside : r.sourceOffset.toNat + r.rows.toNat * r.rowBytes.toNat ≤ r.fullSize.toNat :=
    (h.fits.packed_inside gapless h.rows_pos).1
  have limit := r.fullSize.toNat_lt
  have product : (r.rows * r.rowBytes).toNat = r.rows.toNat * r.rowBytes.toNat := by
    rw [UInt64.toNat_mul, Nat.mod_eq_of_lt (by omega)]
  have stop : (r.sourceOffset + r.rows * r.rowBytes).toNat =
      r.sourceOffset.toNat + r.rows.toNat * r.rowBytes.toNat := by
    rw [UInt64.toNat_add, product, Nat.mod_eq_of_lt (by omega)]
  have readable : r.sourceOffset.toNat + r.rows.toNat * r.rowBytes.toNat ≤ pixels.bytes.length := by
    rw [show pixels.bytes.length = r.fullSize.toNat from full]
    exact inside
  obtain ⟨data, hdata, bytes⟩ := part_eq place (Nat.le_add_right _ _) readable
  refine ⟨[.writeBuffer buffer r.destinationOffset data], ?_, ?_⟩
  · unfold ImageReadbackRegion.packedWrite
    dsimp only
    rw [stop, hdata]
    rfl
  · unfold written
    rw [List.filterMap_cons_some (b := r.copy.packed pixels.bytes) ?_, List.filterMap_nil]
    rw [writtenBy, bytes, Nat.add_sub_cancel_left]
    rfl

/-- The index of a byte of a texel in the packed level. -/
def sourceIndex (extent : Extent3D) (bytesPerPixel : UInt32) (region : BufferImageCopy)
    (row column byte : Nat) : Nat :=
  ((region.line + row) * extent.width.toNat + (region.column + column)) * bytesPerPixel.toNat + byte

/-- The index of a byte of a texel in the buffer. -/
def targetIndex (bytesPerPixel : UInt32) (region : BufferImageCopy) (row column byte : Nat) : Nat :=
  region.bufferOffset.toNat +
    ((row * region.destinationWidth + column) * bytesPerPixel.toNat + byte)

/-- A byte of a texel of the selected rectangle. -/
structure Selects (bytesPerPixel : UInt32) (region : BufferImageCopy) (row column byte : Nat) :
    Prop where
  row : row < region.imageExtent.height.toNat
  column : column < region.imageExtent.width.toNat
  byte : byte < bytesPerPixel.toNat

/-- The index is in a range that the region names. -/
def InRanges (r : ImageReadbackRegion) (i : Nat) : Prop :=
  ∃ range ∈ r.destinationRanges, range.1.toNat ≤ i ∧ i < range.2.toNat

/-- The ranges of the region are inside the buffer and apart, and are the bytes of the selected
texels.  Each of these is that of the image, and all other bytes are as before. -/
structure Copies (extent : Extent3D) (bytesPerPixel : UInt32) (region : BufferImageCopy)
    (r : ImageReadbackRegion) (pixels before after : List UInt8) : Prop where
  length : after.length = before.length
  inside : ∀ range ∈ r.destinationRanges, range.1.toNat ≤ range.2.toNat ∧ range.2.toNat ≤ before.length
  apart : r.destinationRanges.Pairwise fun a b => a.2.toNat ≤ b.1.toNat
  exact : ∀ i, r.InRanges i ↔
    ∃ row column byte, Selects bytesPerPixel region row column byte ∧
      i = targetIndex bytesPerPixel region row column byte
  texel : ∀ row column byte, Selects bytesPerPixel region row column byte →
    ∃ value, pixels[sourceIndex extent bytesPerPixel region row column byte]? = some value ∧
      after[targetIndex bytesPerPixel region row column byte]? = some value
  outside : ∀ i, ¬ r.InRanges i → after[i]? = before[i]?

/-- Where a byte of a texel is in its row. -/
theorem Describes.targetIndex_eq (h : r.Describes extent bytesPerPixel bufferSize region)
    (row column byte : Nat) : targetIndex bytesPerPixel region row column byte =
      r.copy.targetRow row + (column * bytesPerPixel.toNat + byte) := by
  show _ = r.destinationOffset.toNat + row * r.destinationStride.toNat + _
  rw [h.destinationOffset, h.destinationStride, targetIndex, Nat.add_mul, Nat.mul_assoc]
  omega

theorem Describes.sourceIndex_eq (h : r.Describes extent bytesPerPixel bufferSize region)
    (row column byte : Nat) : sourceIndex extent bytesPerPixel region row column byte =
      r.copy.sourceRow row + (column * bytesPerPixel.toNat + byte) := by
  show _ = r.sourceOffset.toNat + row * r.sourceStride.toNat + _
  rw [h.sourceOffset, h.sourceStride, sourceIndex, Nat.add_mul, Nat.add_mul, Nat.add_mul, Nat.add_mul,
    Nat.mul_assoc, Nat.mul_assoc]
  omega

theorem Describes.selects_lt (h : r.Describes extent bytesPerPixel bufferSize region)
    {column byte : Nat} (selected : Selects bytesPerPixel region row column byte) :
    row < r.copy.rows ∧ column * bytesPerPixel.toNat + byte < r.copy.rowBytes := by
  obtain ⟨hrow, hcolumn, hbyte⟩ := selected
  have next : (column + 1) * bytesPerPixel.toNat ≤
      region.imageExtent.width.toNat * bytesPerPixel.toNat := Nat.mul_le_mul_right _ hcolumn
  rw [Nat.succ_mul] at next
  refine ⟨Nat.lt_of_lt_of_eq hrow h.rows.symm, ?_⟩
  show _ < r.rowBytes.toNat
  rw [h.rowBytes]
  omega

/-- The ranges of the region are its rows. -/
theorem Describes.inRanges_iff (h : r.Describes extent bytesPerPixel bufferSize region) {i : Nat} :
    r.InRanges i ↔
      ∃ row < r.copy.rows, r.copy.targetRow row ≤ i ∧ i < r.copy.targetRow row + r.copy.rowBytes := by
  constructor
  · rintro ⟨range, member, low, high⟩
    obtain ⟨row, hrow, start, stop⟩ := h.mem_destinationRanges member
    exact ⟨row, hrow, start ▸ low, stop ▸ high⟩
  · rintro ⟨row, hrow, low, high⟩
    obtain ⟨start, stop⟩ := h.targetRow hrow
    refine ⟨_, List.mem_map_of_mem (List.mem_range.mpr hrow), ?_, ?_⟩
    · exact start ▸ low
    · exact stop ▸ high

/-- The ranges of the region are the bytes of the selected texels. -/
theorem Describes.inRanges_iff_selects (h : r.Describes extent bytesPerPixel bufferSize region)
    {i : Nat} : r.InRanges i ↔
      ∃ row column byte, Selects bytesPerPixel region row column byte ∧
        i = targetIndex bytesPerPixel region row column byte := by
  rw [h.inRanges_iff]
  constructor
  · rintro ⟨row, hrow, low, high⟩
    have width : r.copy.rowBytes = region.imageExtent.width.toNat * bytesPerPixel.toNat := h.rowBytes
    have inside : i - r.copy.targetRow row < region.imageExtent.width.toNat * bytesPerPixel.toNat := by
      omega
    have parts := Nat.div_add_mod' (i - r.copy.targetRow row) bytesPerPixel.toNat
    refine ⟨row, (i - r.copy.targetRow row) / bytesPerPixel.toNat,
      (i - r.copy.targetRow row) % bytesPerPixel.toNat, ⟨h.rows ▸ hrow, ?_, ?_⟩, ?_⟩
    · rw [Nat.div_lt_iff_lt_mul h.pixel]
      exact inside
    · exact Nat.mod_lt _ h.pixel
    · rw [h.targetIndex_eq, parts]
      omega
  · rintro ⟨row, column, byte, selected, rfl⟩
    obtain ⟨hrow, hbyte⟩ := h.selects_lt selected
    rw [h.targetIndex_eq]
    exact ⟨row, hrow, Nat.le_add_right .., Nat.add_lt_add_left hbyte _⟩

/-- A byte that is there. -/
theorem getElem?_eq_get {bytes : List UInt8} {i : Nat} (h : i < bytes.length) :
    bytes[i]? = some (Bytes.get bytes i) := by
  rw [Bytes.get, List.getD_eq_getElem _ _ h, List.getElem?_eq_getElem h]

/-- Copying the rows copies the selected texels. -/
theorem Describes.copies (h : r.Describes extent bytesPerPixel bufferSize region)
    (full : pixels.len = r.fullSize.toNat) {before : List UInt8}
    (room : bufferSize.toNat ≤ before.length) :
    r.Copies extent bytesPerPixel region pixels.bytes before
      (overwrite before (r.copy.pieces pixels.bytes)) := by
  have fits := h.fits_pixels full room
  have length : (overwrite before (r.copy.pieces pixels.bytes)).length = before.length :=
    overwrite_length fits.apart.inside
  refine ⟨length, ?_, ?_, fun i => h.inRanges_iff_selects, ?_, ?_⟩
  · intro range member
    obtain ⟨row, hrow, start, stop⟩ := h.mem_destinationRanges member
    have inside := fits.target row hrow
    omega
  · unfold destinationRanges
    rw [List.pairwise_map]
    refine (List.Pairwise.and_mem.mp List.pairwise_lt_range).imp ?_
    rintro row later ⟨hrow, hlater, order⟩
    have first := (h.targetRow (List.mem_range.mp hrow)).2
    have second := (h.targetRow (List.mem_range.mp hlater)).1
    have apart := RowCopy.targetRow_lt fits.tight order
    show (r.destinationOffset + .ofNat row * r.destinationStride + r.rowBytes).toNat ≤
      (r.destinationOffset + .ofNat later * r.destinationStride).toNat
    rw [first, second]
    exact apart
  · intro row column byte selected
    obtain ⟨hrow, hbyte⟩ := h.selects_lt selected
    have readable := fits.source row hrow
    have writable := fits.target row hrow
    refine ⟨_, getElem?_eq_get ?_, ?_⟩
    · rw [h.sourceIndex_eq]
      omega
    · rw [h.targetIndex_eq, getElem?_eq_get (by omega), fits.get_row hrow hbyte, h.sourceIndex_eq]
  · intro i outside
    have same := fits.get_outside (i := i) fun row hrow covered =>
      outside (h.inRanges_iff.mpr ⟨row, hrow, covered⟩)
    by_cases inside : i < before.length
    · rw [getElem?_eq_get inside, getElem?_eq_get (length ▸ inside), same]
    · rw [List.getElem?_eq_none (by omega), List.getElem?_eq_none (by omega)]

/-- The writes of an accepted region index neither outside the pixels nor outside the buffer, and
copy the selected texels.  The rows one by one give the same. -/
theorem writes_copies {aspect : UInt32}
    (accepted : withAspect extent bytesPerPixel bufferSize region aspect = .ok r)
    (place : Placement) (buffer : BufferId) (full : pixels.len = r.fullSize.toNat)
    {before : List UInt8} (room : bufferSize.toNat ≤ before.length) :
    ∃ commands after, r.writes place pixels buffer = .ok (some commands) ∧
      overwriteChecked before (written commands) = some after ∧
      r.Copies extent bytesPerPixel region pixels.bytes before after ∧
      ∃ rows, r.rowWrites place pixels buffer = some rows ∧
        overwriteChecked before (written rows) = some after := by
  have h := describes_withAspect accepted
  have fits := h.fits_pixels full room
  have copied := overwriteChecked_eq fits.apart.inside
  obtain ⟨rows, hrows, rowPieces⟩ : ∃ rows, r.rowWrites place pixels buffer = some rows ∧
    written rows = r.copy.pieces pixels.bytes := h.rowWrites full
  have rowwise : overwriteChecked before (written rows) =
      some (overwrite before (r.copy.pieces pixels.bytes)) := rowPieces ▸ copied
  unfold writes
  rw [if_neg (not_not_intro full)]
  split
  · rename_i equal
    have gapless : r.copy.Gapless :=
      ⟨congrArg UInt64.toNat equal.1, congrArg UInt64.toNat equal.2⟩
    obtain ⟨commands, made, pieces⟩ : ∃ commands, r.packedWrite place pixels buffer = some commands ∧
      written commands = [r.copy.packed pixels.bytes] := h.packedWrite full gapless
    have one : overwriteChecked before [r.copy.packed pixels.bytes] =
        some (overwrite before (r.copy.pieces pixels.bytes)) := by
      rw [← fits.overwrite_packed gapless h.rows_pos]
      refine overwriteChecked_eq fun piece member => ?_
      obtain rfl := List.mem_singleton.mp member
      exact fits.packed_stop gapless h.rows_pos
    exact ⟨commands, _, congrArg Except.ok made, pieces ▸ one, h.copies full room, rows, hrows, rowwise⟩
  · exact ⟨rows, _, congrArg Except.ok hrows, rowwise, h.copies full room, rows, hrows, rowwise⟩

end Writes

/-! ## A padded region -/

/-- Two columns of two lines of an image of four by three, with padding in the buffer. -/
def paddedRegion : BufferImageCopy where
  bufferOffset := 1
  bufferRowLength := 4
  bufferImageHeight := 7
  imageSubresource := ⟨1, 0, 0, 1⟩
  imageOffset := ⟨1, 1, 0⟩
  imageExtent := ⟨2, 2, 1⟩

/-- What its checks give. -/
def paddedReadback : ImageReadbackRegion := ⟨12, 5, 4, 2, 2, 1, 4⟩

theorem address_ne : (1 : UInt64) ≠ 0 := by decide

/-- Every payload is at one address. -/
def onePlace : Placement := fun _ => ⟨1, address_ne⟩

theorem twelve_lt : (List.replicate 12 (7 : UInt8)).length < 2 ^ 63 := by decide

/-- Pixels of one byte. -/
def twelvePixels : Payload := ⟨List.replicate 12 7, 1, address_ne, twelve_lt⟩

theorem writes_copies_padded :
    withAspect ⟨4, 3, 1⟩ 1 12 paddedRegion 1 = .ok paddedReadback ∧
    ∃ commands after, paddedReadback.writes onePlace twelvePixels ⟨0, 0, 0⟩ =
        .ok (some commands) ∧
      overwriteChecked (List.replicate 12 205) (written commands) = some after ∧
      paddedReadback.Copies ⟨4, 3, 1⟩ 1 paddedRegion twelvePixels.bytes (List.replicate 12 205) after ∧
      ∃ rows, paddedReadback.rowWrites onePlace twelvePixels ⟨0, 0, 0⟩ = some rows ∧
        overwriteChecked (List.replicate 12 205) (written rows) = some after := by
  have accepted : withAspect ⟨4, 3, 1⟩ 1 12 paddedRegion 1 = .ok paddedReadback := by decide
  exact ⟨accepted, writes_copies accepted onePlace ⟨0, 0, 0⟩ rfl (by decide)⟩

end ImageReadbackRegion

end Sgfx.Vulkan
