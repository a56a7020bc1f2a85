import Mathlib.Data.Set.Prod
import Mathlib.Order.Interval.Set.Basic
import Sgfx.Library.Slices
import Sgfx.Library.WordCodec
import Sgfx.Virgl.TextureUploads

/-!
# What a device reads of an inline write

A `RESOURCE_INLINE_WRITE` packet is read back as the box that it names and the bytes after its
twelve words.  `Carries` is what a packet owes to the upload: it is well formed, and the bytes that
the device finds for a texel by the strides of the packet are those of the upload.

## Main Definitions

* `InlineWrite`, `readInlineWrite`
* `Carries`

## Main Results

* `inlinePacket_carries` — a packet of the loops carries its box
-/

namespace Sgfx.Virgl.TextureUploads

open Draws

/-! ## Reading a packet -/

/-- A packet, as the device reads it. -/
structure InlineWrite where
  header : UInt32
  resource : UInt32
  level : UInt32
  usage : UInt32
  stride : UInt32
  layerStride : UInt32
  x : UInt32
  y : UInt32
  z : UInt32
  width : UInt32
  height : UInt32
  depth : UInt32
  data : List UInt8

/-- The texels of a box, by column and row. -/
def cells (x y width height : Nat) : Set (Nat × Nat) :=
  Set.Ico x (x + width) ×ˢ Set.Ico y (y + height)

/-- The texels that a packet writes. -/
def InlineWrite.cells (write : InlineWrite) : Set (Nat × Nat) :=
  TextureUploads.cells write.x.toNat write.y.toNat write.width.toNat write.height.toNat

/-- The place of a byte of a texel in the data of a packet. -/
def InlineWrite.offset (write : InlineWrite) (texelBytes column row k : Nat) : Nat :=
  (row - write.y.toNat) * write.stride.toNat + (column - write.x.toNat) * texelBytes + k

/-- The texels that an upload writes. -/
def IrTextureUpload.cells (upload : IrTextureUpload) : Set (Nat × Nat) :=
  let rect := upload.destination
  TextureUploads.cells rect.x.toNat rect.y.toNat rect.width.toNat rect.height.toNat

/-- The place of a byte of a texel in the tightly packed pixels of an upload. -/
def IrTextureUpload.offset (upload : IrTextureUpload) (texelBytes column row k : Nat) : Nat :=
  let rect := upload.destination
  (row - rect.y.toNat) * (rect.width.toNat * texelBytes) + (column - rect.x.toNat) * texelBytes + k

/-- The next four bytes, as a word. -/
def dword : Reader UInt8 Unit UInt32 := do
  let bytes ← Reader.take 4 ()
  return .ofNat (Bytes.fromLeBytes bytes)

/-- Twelve words, and the rest as data. -/
def readInlineWrite (packet : List UInt8) : Option InlineWrite :=
  match Reader.repeated dword 12 packet with
  | (.ok [header, resource, level, usage, stride, layerStride, x, y, z, width, height, depth],
      data) =>
      some { header, resource, level, usage, stride, layerStride, x, y, z, width, height, depth,
             data }
  | _ => none

/-- A word as it is sent. -/
def dwordBytes (word : UInt32) : List UInt8 := Bytes.toLeBytes 4 word.toNat

theorem dword_reads (word : UInt32) : Sgfx.Reads dword (dwordBytes word) word := by
  have take : Sgfx.Reads (Reader.take 4 ()) (dwordBytes word) (dwordBytes word) := Sgfx.Reads.take
  refine take.bind_pure ?_
  rw [dwordBytes, Bytes.fromLeBytes_toLeBytes (show word.toNat < 256 ^ 4 from word.toNat_lt),
    UInt32.ofNat_toNat]

theorem flatMap_dwordBytes_length (words : List UInt32) :
    (words.flatMap dwordBytes).length = 4 * words.length := by
  induction words with
  | nil => rfl
  | cons word rest ih =>
      rw [List.flatMap_cons, List.length_append, ih, dwordBytes, Bytes.toLeBytes_length,
        List.length_cons]
      omega

/-- The words that place the box, and the data. -/
theorem readInlineWrite_words (header resource level usage stride layerStride x y z width height
    depth : UInt32) (data : List UInt8) :
    readInlineWrite ([header, resource, level, usage, stride, layerStride, x, y, z, width, height,
      depth].flatMap dwordBytes ++ data) =
      some { header, resource, level, usage, stride, layerStride, x, y, z, width, height, depth,
             data } := by
  have read (words : List UInt32) :
      Reader.repeated dword words.length (words.flatMap dwordBytes ++ data) = (.ok words, data) := by
    have all : Sgfx.Reads (Reader.repeated dword words.length) (words.flatMap dwordBytes)
        (words.map id) := Sgfx.Reads.repeated fun word _ => dword_reads word
    rw [all data, List.map_id]
  unfold readInlineWrite
  rw [show (12 : Nat) = [header, resource, level, usage, stride, layerStride, x, y, z, width,
    height, depth].length from rfl, read]

/-! ## What a packet owes to the upload -/

/-- A packet for a resource under a limit, and the texels of the upload that it carries. -/
structure Carries (resourceId : UInt32) (upload : IrTextureUpload) (maxCommandSize : UInt64)
    (packet : List UInt8) (write : InlineWrite) : Prop where
  read : readInlineWrite packet = some write
  /-- A whole number of words, within the limit. -/
  size : packet.length ≤ maxCommandSize.toNat
  /-- The header counts the words after it. -/
  length : packet.length = 4 * (payloadLength write.header + 1)
  length_lt : packet.length / 4 - 1 < 2 ^ 16
  command : commandOf write.header = VIRGL_CCMD_RESOURCE_INLINE_WRITE
  object : objectOf write.header = 0
  resource : write.resource = resourceId
  level : write.level = upload.mipLevel
  layer : write.z = upload.arrayLayer
  depth : write.depth = 1
  stride : write.stride.toNat = write.width.toNat * (bytesPerTexel upload.storageFormat).toNat
  layerStride : write.layerStride.toNat = write.stride.toNat * write.height.toNat
  /-- The data is that of the box, and less than a word of padding. -/
  data : write.data.length = 4 * ((write.layerStride.toNat + 3) / 4)
  padding : ∀ i, write.layerStride.toNat ≤ i → Bytes.get write.data i = 0
  /-- Every byte of every texel of the box is the one of the upload. -/
  texels : ∀ column row k, (column, row) ∈ write.cells →
    k < (bytesPerTexel upload.storageFormat).toNat →
      Bytes.get write.data
          (write.offset (bytesPerTexel upload.storageFormat).toNat column row k) =
        Bytes.get upload.pixels
          (upload.offset (bytesPerTexel upload.storageFormat).toNat column row k)

/-! ## Arithmetic -/

theorem toNat_min32 (a b : UInt32) : (min a b).toNat = min a.toNat b.toNat := by
  rw [show min a b = if a ≤ b then a else b from rfl, apply_ite UInt32.toNat, Nat.min_def]
  rfl

theorem toNat_min64 (a b : UInt64) : (min a b).toNat = min a.toNat b.toNat := by
  rw [show min a b = if a ≤ b then a else b from rfl, apply_ite UInt64.toNat, Nat.min_def]
  rfl

/-- The lowest two bits cleared: a number of bytes rounded down to whole words. -/
theorem toNat_and_not_three (n : UInt64) : (n &&& ~~~3).toNat = 4 * (n.toNat / 4) := by
  have hbits : n.toNat < 2 ^ 64 := n.toNat_lt
  rw [UInt64.toNat_and, show (~~~3 : UInt64).toNat = 2 ^ 2 * (2 ^ 62 - 1) from rfl,
    show 4 * (n.toNat / 4) = 2 ^ 2 * (n.toNat / 2 ^ 2) from rfl]
  apply Nat.eq_of_testBit_eq
  intro i
  rw [Nat.testBit_and, Nat.testBit_two_pow_mul, Nat.testBit_two_pow_mul, Nat.testBit_div_two_pow,
    Nat.testBit_two_pow_sub_one]
  by_cases low : 2 ≤ i
  · rw [Nat.sub_add_cancel low]
    by_cases high : i - 2 < 62
    · simp [low, high]
    · have beyond : n.toNat.testBit i = false :=
        Nat.testBit_lt_two_pow (Nat.lt_of_lt_of_le hbits (Nat.pow_le_pow_right (by decide) (by omega)))
      simp [beyond]
  · simp [low]

/-! ## The checks before the loops -/

/-- What the checks establish, in plain numbers. -/
structure Admitted (resourceId : UInt32) (upload : IrTextureUpload) (maxCommandSize : UInt64)
    (layout : InlineLayout) : Prop where
  fixed : 48 ≤ maxCommandSize.toNat
  payload : layout.maxPayload.toNat = 4 * ((min maxCommandSize.toNat 262144 - 48) / 4)
  room : 4 ≤ layout.maxPayload.toNat
  texel : layout.bytesPerTexel = bytesPerTexel upload.storageFormat
  row : layout.rowBytes.toNat =
    upload.destination.width.toNat * (bytesPerTexel upload.storageFormat).toNat
  pixels : upload.pixels.length = layout.rowBytes.toNat * upload.destination.height.toNat
  pixels_lt : upload.pixels.length < 2 ^ 64
  width_pos : 0 < upload.destination.width.toNat
  height_pos : 0 < upload.destination.height.toNat
  right : upload.destination.x.toNat + upload.destination.width.toNat < 2 ^ 32
  bottom : upload.destination.y.toNat + upload.destination.height.toNat < 2 ^ 32

theorem maxPayload_toNat {limit payload : UInt64} (h : maxPayload limit = some payload) :
    48 ≤ limit.toNat ∧ payload.toNat = 4 * ((min limit.toNat 262144 - 48) / 4) ∧
      4 ≤ payload.toNat := by
  simp only [maxPayload] at h
  have hbytes : (min limit MAX_PACKET_BYTES).toNat = min limit.toNat 262144 := toNat_min64 ..
  split at h
  · cases h
  · rename_i hfixed
    obtain ⟨h, hroom⟩ := Option.filter_eq_some_iff.mp h
    have hfixed : 48 ≤ (min limit MAX_PACKET_BYTES).toNat := Nat.le_of_not_lt hfixed
    have hvalue := congrArg UInt64.toNat (Option.some.inj h)
    rw [toNat_and_not_three, UInt64.toNat_sub_of_le _ _ hfixed, hbytes] at hvalue
    exact ⟨by omega, hvalue.symm, of_decide_eq_true hroom⟩

theorem irRectIsWithin_bounds {rect : IrRect} {width height : UInt32}
    (h : irRectIsWithin rect width height = true) :
    0 < rect.width.toNat ∧ 0 < rect.height.toNat ∧
      rect.x.toNat + rect.width.toNat < 2 ^ 32 ∧ rect.y.toNat + rect.height.toNat < 2 ^ 32 := by
  simp only [irRectIsWithin, Bool.and_eq_true, bne_iff_ne, ne_eq, Option.any_eq_true] at h
  obtain ⟨⟨⟨hwidth, hheight⟩, right, hright, -⟩, bottom, hbottom, -⟩ := h
  refine ⟨Nat.pos_of_ne_zero fun h => hwidth (UInt32.toNat_inj.mp h),
    Nat.pos_of_ne_zero fun h => hheight (UInt32.toNat_inj.mp h), ?_, ?_⟩
  · rw [← (checkedAdd32_eq_some hright).2]
    exact right.toNat_lt
  · rw [← (checkedAdd32_eq_some hbottom).2]
    exact bottom.toNat_lt

theorem inlineLayout_admitted {reserve : UInt64 → Bool} {resourceId : UInt32}
    {upload : IrTextureUpload} {maxCommandSize : UInt64} {layout : InlineLayout}
    (h : inlineLayout reserve resourceId upload maxCommandSize = .ok layout) :
    Admitted resourceId upload maxCommandSize layout := by
  simp only [inlineLayout, bind, Except.bind] at h
  split at h
  · cases h
  rename_i payload hpayload
  split at h
  · cases h
  rename_i rowBytes hrow
  split at h
  · cases h
  rename_i byteLen hbyteLen
  split at h
  · cases h
  rename_i hchecks
  split at h
  · cases h
  cases h
  rw [okOr_eq_ok] at hpayload hrow hbyteLen
  rw [failIf_eq_ok] at hchecks
  simp only [not_or, Bool.not_eq_false, ne_eq, Decidable.not_not] at hchecks
  obtain ⟨hfixed, hpayload, hroom⟩ := maxPayload_toNat hpayload
  obtain ⟨hwidth, hheight, hright, hbottom⟩ := irRectIsWithin_bounds hchecks.2.2.2.2.1
  have hlength := hchecks.2.2.2.2.2.2.2.2
  exact {
    fixed := hfixed
    payload := hpayload
    room := hroom
    texel := rfl
    row := (checkedMul64_eq_some hrow).2
    pixels := hlength.trans (checkedMul64_eq_some hbyteLen).2
    pixels_lt := hlength ▸ byteLen.toNat_lt
    width_pos := hwidth
    height_pos := hheight
    right := hright
    bottom := hbottom }

/-! ## One packet -/

theorem bytesPerTexel_bounds (format : IrTextureFormat) :
    1 ≤ (bytesPerTexel format).toNat ∧ (bytesPerTexel format).toNat ≤ 16 := by
  cases format <;> decide

/-- A box of the rectangle that fits in a packet: whole rows, or a span of one row. -/
structure Fits (upload : IrTextureUpload) (layout : InlineLayout) (y rows x width : UInt32) :
    Prop where
  width_pos : 0 < width.toNat
  rows_pos : 0 < rows.toNat
  right : x.toNat + width.toNat ≤ upload.destination.width.toNat
  bottom : y.toNat + rows.toNat ≤ upload.destination.height.toNat
  bytes : width.toNat * (bytesPerTexel upload.storageFormat).toNat * rows.toNat ≤
    layout.maxPayload.toNat
  whole : rows.toNat = 1 ∨ x.toNat = 0 ∧ width.toNat = upload.destination.width.toNat

section Packet

variable {resourceId : UInt32} {upload : IrTextureUpload} {maxCommandSize : UInt64}
  {layout : InlineLayout} {y rows x width : UInt32}

/-- The bytes of a box are inside the pixels. -/
theorem Fits.inside (fits : Fits upload layout y rows x width)
    (admitted : Admitted resourceId upload maxCommandSize layout) :
    y.toNat * layout.rowBytes.toNat + x.toNat * (bytesPerTexel upload.storageFormat).toNat +
        width.toNat * (bytesPerTexel upload.storageFormat).toNat * rows.toNat ≤
      upload.pixels.length := by
  have hbottom := Nat.mul_le_mul_right layout.rowBytes.toNat fits.bottom
  have hright := Nat.mul_le_mul_right (bytesPerTexel upload.storageFormat).toNat fits.right
  rw [Nat.add_mul] at hbottom hright
  rw [admitted.pixels, Nat.mul_comm layout.rowBytes.toNat]
  obtain one | ⟨start, full⟩ := fits.whole
  · rw [one, Nat.one_mul] at hbottom
    rw [one, Nat.mul_one]
    have := admitted.row
    omega
  · have := admitted.row
    rw [start, full, Nat.zero_mul, ← admitted.row, Nat.mul_comm layout.rowBytes.toNat rows.toNat]
    omega

/-- The byte of a texel is at the same place by the strides of its packet as in the pixels. -/
theorem Fits.offset_eq (fits : Fits upload layout y rows x width)
    (admitted : Admitted resourceId upload maxCommandSize layout) {i j : Nat}
    (hj : j < rows.toNat) :
    y.toNat * layout.rowBytes.toNat + x.toNat * (bytesPerTexel upload.storageFormat).toNat +
        (j * (width.toNat * (bytesPerTexel upload.storageFormat).toNat) +
          i * (bytesPerTexel upload.storageFormat).toNat) =
      (y.toNat + j) * layout.rowBytes.toNat +
        (x.toNat + i) * (bytesPerTexel upload.storageFormat).toNat := by
  rw [Nat.add_mul, Nat.add_mul]
  obtain one | ⟨start, full⟩ := fits.whole
  · obtain rfl : j = 0 := by omega
    rw [Nat.zero_mul, Nat.zero_mul]
    omega
  · rw [full, ← admitted.row, start]
    omega

/-- A texel of a box is inside its bytes. -/
theorem offset_lt {i j k columns lines texel : Nat} (hi : i < columns) (hj : j < lines)
    (hk : k < texel) : j * (columns * texel) + i * texel + k < columns * texel * lines := by
  have hline := Nat.mul_le_mul_right (columns * texel) (Nat.succ_le_of_lt hj)
  have hcolumn := Nat.mul_le_mul_right texel (Nat.succ_le_of_lt hi)
  rw [Nat.succ_mul] at hline hcolumn
  rw [Nat.mul_comm (columns * texel) lines]
  omega

/-- The words of a packet are pushed one at a time. -/
theorem pushDword_eq (commands : List UInt8) (word : UInt32) :
    pushDword commands word = commands ++ dwordBytes word := rfl

/-- The bytes of a box of the loops. -/
def boxBytes (upload : IrTextureUpload) (rows width : UInt32) : Nat :=
  width.toNat * (bytesPerTexel upload.storageFormat).toNat * rows.toNat

/-- The place of the first byte of a box in the pixels. -/
def boxStart (upload : IrTextureUpload) (layout : InlineLayout) (y x : UInt32) : Nat :=
  y.toNat * layout.rowBytes.toNat + x.toNat * (bytesPerTexel upload.storageFormat).toNat

/-- What the device reads of the packet of a box. -/
def boxWrite (resourceId : UInt32) (upload : IrTextureUpload) (layout : InlineLayout)
    (y rows x width : UInt32) : InlineWrite where
  header := commandHeader VIRGL_CCMD_RESOURCE_INLINE_WRITE 0
    (.ofNat (11 + (boxBytes upload rows width + 3) / 4))
  resource := resourceId
  level := upload.mipLevel
  usage := 0
  stride := .ofNat (width.toNat * (bytesPerTexel upload.storageFormat).toNat)
  layerStride := .ofNat (boxBytes upload rows width)
  x := upload.destination.x + x
  y := upload.destination.y + y
  z := upload.arrayLayer
  width := width
  height := rows
  depth := 1
  data := Bytes.resize (slice upload.pixels (boxStart upload layout y x)
    (boxStart upload layout y x + boxBytes upload rows width))
    (4 * ((boxBytes upload rows width + 3) / 4))

/-- The words that place a box. -/
def InlineWrite.words (write : InlineWrite) : List UInt32 :=
  [write.header, write.resource, write.level, write.usage, write.stride, write.layerStride,
    write.x, write.y, write.z, write.width, write.height, write.depth]

theorem Fits.boxBytes_le (fits : Fits upload layout y rows x width)
    (admitted : Admitted resourceId upload maxCommandSize layout) :
    width.toNat * (bytesPerTexel upload.storageFormat).toNat ≤ boxBytes upload rows width ∧
      boxBytes upload rows width ≤ layout.maxPayload.toNat ∧
      layout.maxPayload.toNat ≤ 262096 := by
  refine ⟨Nat.le_mul_of_pos_right _ fits.rows_pos, fits.bytes, ?_⟩
  have := admitted.payload
  omega

/-- None of the sums and products of the source wraps. -/
theorem inlinePacket_eq (admitted : Admitted resourceId upload maxCommandSize layout)
    (fits : Fits upload layout y rows x width) :
    inlinePacket resourceId upload layout y rows x width =
      .ok ((boxWrite resourceId upload layout y rows x width).words.flatMap dwordBytes ++
        (boxWrite resourceId upload layout y rows x width).data) := by
  obtain ⟨-, htexel⟩ := bytesPerTexel_bounds upload.storageFormat
  obtain ⟨hspan, hbox, hpayload⟩ := fits.boxBytes_le admitted
  have hinside : boxStart upload layout y x + boxBytes upload rows width ≤ upload.pixels.length :=
    fits.inside admitted
  have hpixels := admitted.pixels_lt
  have hstride : (width * layout.bytesPerTexel.toUInt32).toNat =
      width.toNat * (bytesPerTexel upload.storageFormat).toNat := by
    rw [UInt32.toNat_mul, UInt64.toNat_toUInt32, admitted.texel,
      Nat.mod_eq_of_lt (show (bytesPerTexel upload.storageFormat).toNat < 2 ^ 32 by omega),
      Nat.mod_eq_of_lt (by omega)]
  have hlength : ((width * layout.bytesPerTexel.toUInt32).toUInt64 * rows.toUInt64).toNat =
      boxBytes upload rows width := by
    rw [UInt64.toNat_mul, UInt32.toNat_toUInt64, UInt32.toNat_toUInt64, hstride]
    exact Nat.mod_eq_of_lt (show boxBytes upload rows width < 2 ^ 64 by omega)
  have hstart : (y.toUInt64 * layout.rowBytes + x.toUInt64 * layout.bytesPerTexel).toNat =
      boxStart upload layout y x := by
    have hsum : y.toNat * layout.rowBytes.toNat +
        x.toNat * (bytesPerTexel upload.storageFormat).toNat < 2 ^ 64 := by
      have : boxStart upload layout y x < 2 ^ 64 := by omega
      exact this
    rw [UInt64.toNat_add, UInt64.toNat_mul, UInt64.toNat_mul, UInt32.toNat_toUInt64,
      UInt32.toNat_toUInt64, admitted.texel, Nat.mod_eq_of_lt (Nat.lt_of_le_of_lt
        (Nat.le_add_right ..) hsum), Nat.mod_eq_of_lt (Nat.lt_of_le_of_lt (Nat.le_add_left ..) hsum),
      Nat.mod_eq_of_lt hsum]
    rfl
  generalize hlen : (width * layout.bytesPerTexel.toUInt32).toUInt64 * rows.toUInt64 = length
    at hlength
  generalize hfirst : y.toUInt64 * layout.rowBytes + x.toUInt64 * layout.bytesPerTexel = start
    at hstart
  have hstop : (start + length).toNat = boxStart upload layout y x + boxBytes upload rows width := by
    rw [UInt64.toNat_add, hstart, hlength]
    exact Nat.mod_eq_of_lt (by omega)
  have hpadded : ((length + 3) &&& ~~~3).toNat = 4 * ((boxBytes upload rows width + 3) / 4) := by
    rw [toNat_and_not_three, UInt64.toNat_add, hlength, show (3 : UInt64).toNat = 3 from rfl,
      Nat.mod_eq_of_lt (by omega)]
  have htotal : (FIXED_BYTES + ((length + 3) &&& ~~~3)).toNat =
      48 + 4 * ((boxBytes upload rows width + 3) / 4) := by
    rw [UInt64.toNat_add, hpadded, show FIXED_BYTES.toNat = 48 from rfl]
    exact Nat.mod_eq_of_lt (by omega)
  have hwords : 11 + (((length + 3) &&& ~~~3) / 4).toUInt32 =
      .ofNat (11 + (boxBytes upload rows width + 3) / 4) := by
    apply UInt32.toNat_inj.mp
    rw [UInt32.toNat_add, UInt64.toNat_toUInt32, UInt64.toNat_div, hpadded, UInt32.toNat_ofNat',
      show (4 : UInt64).toNat = 4 from rfl, show (11 : UInt32).toNat = 11 from rfl]
    omega
  have hslice : indexRange upload.pixels start.toNat (start + length).toNat =
      some (slice upload.pixels (boxStart upload layout y x)
        (boxStart upload layout y x + boxBytes upload rows width)) := by
    rw [hstart, hstop]
    exact indexRange_some (Nat.le_add_right ..) hinside
  have hstride' : width * layout.bytesPerTexel.toUInt32 =
      .ofNat (width.toNat * (bytesPerTexel upload.storageFormat).toNat) := by
    rw [← hstride, UInt32.ofNat_toNat]
  have hlayer : length.toUInt32 = .ofNat (boxBytes upload rows width) := by
    apply UInt32.toNat_inj.mp
    rw [UInt64.toNat_toUInt32, hlength, UInt32.toNat_ofNat']
  simp only [inlinePacket, hlen, hfirst, hslice, okOr, hwords, htotal, hlayer]
  rw [hstride']
  have hplace : (boxWrite resourceId upload layout y rows x width).words.flatMap dwordBytes =
      pushDword (pushDword (pushDword (pushDword (pushDword (pushDword (pushDword (pushDword
        (pushDword (pushDword (pushDword (pushDword []
          (commandHeader VIRGL_CCMD_RESOURCE_INLINE_WRITE 0
            (.ofNat (11 + (boxBytes upload rows width + 3) / 4)))) resourceId) upload.mipLevel) 0)
          (.ofNat (width.toNat * (bytesPerTexel upload.storageFormat).toNat)))
          (.ofNat (boxBytes upload rows width))) (upload.destination.x + x))
          (upload.destination.y + y)) upload.arrayLayer) width) rows) 1 := by
    simp only [boxWrite, InlineWrite.words, pushDword_eq, List.flatMap_cons, List.flatMap_nil,
      List.nil_append, List.append_nil, List.append_assoc]
  have hfixed : 48 = ((boxWrite resourceId upload layout y rows x width).words.flatMap
      dwordBytes).length := by
    rw [flatMap_dwordBytes_length]
    rfl
  change Except.ok _ = Except.ok _
  rw [← hplace, hfixed, Bytes.resize_append]
  rfl

/-- The corner of a box, in the texture. -/
theorem Fits.boxWrite_corner (fits : Fits upload layout y rows x width)
    (admitted : Admitted resourceId upload maxCommandSize layout) :
    (boxWrite resourceId upload layout y rows x width).x.toNat =
        upload.destination.x.toNat + x.toNat ∧
      (boxWrite resourceId upload layout y rows x width).y.toNat =
        upload.destination.y.toNat + y.toNat := by
  have hright := fits.right
  have hbottom := fits.bottom
  have hwidth := admitted.right
  have hheight := admitted.bottom
  constructor
  · exact (UInt32.toNat_add ..).trans (Nat.mod_eq_of_lt (by omega))
  · exact (UInt32.toNat_add ..).trans (Nat.mod_eq_of_lt (by omega))

theorem Fits.boxWrite_cells (fits : Fits upload layout y rows x width)
    (admitted : Admitted resourceId upload maxCommandSize layout) :
    (boxWrite resourceId upload layout y rows x width).cells =
      cells (upload.destination.x.toNat + x.toNat) (upload.destination.y.toNat + y.toNat)
        width.toNat rows.toNat := by
  obtain ⟨hx, hy⟩ := fits.boxWrite_corner admitted
  rw [InlineWrite.cells, hx, hy]
  rfl

/-- The data of a box, and zeros after it. -/
theorem Fits.boxWrite_get (fits : Fits upload layout y rows x width)
    (admitted : Admitted resourceId upload maxCommandSize layout) (i : Nat) :
    Bytes.get (boxWrite resourceId upload layout y rows x width).data i =
      if i < boxBytes upload rows width then
        Bytes.get upload.pixels (boxStart upload layout y x + i) else 0 := by
  have hinside : boxStart upload layout y x + boxBytes upload rows width ≤ upload.pixels.length :=
    fits.inside admitted
  have hpixels : (slice upload.pixels (boxStart upload layout y x)
      (boxStart upload layout y x + boxBytes upload rows width)).length =
        boxBytes upload rows width := by
    rw [slice_length]
    omega
  rw [show (boxWrite resourceId upload layout y rows x width).data = Bytes.resize _ _ from rfl,
    Bytes.get_resize (by omega), slice, Nat.add_sub_cancel_left, Bytes.get_take, Bytes.get_drop]

/-- The byte of a texel in the data of its box is the one of the upload. -/
theorem Fits.boxWrite_texel (fits : Fits upload layout y rows x width)
    (admitted : Admitted resourceId upload maxCommandSize layout)
    (hstride : (boxWrite resourceId upload layout y rows x width).stride.toNat =
      width.toNat * (bytesPerTexel upload.storageFormat).toNat) {column row k : Nat}
    (member : (column, row) ∈ (boxWrite resourceId upload layout y rows x width).cells)
    (hk : k < (bytesPerTexel upload.storageFormat).toNat) :
    Bytes.get (boxWrite resourceId upload layout y rows x width).data
        ((boxWrite resourceId upload layout y rows x width).offset
          (bytesPerTexel upload.storageFormat).toNat column row k) =
      Bytes.get upload.pixels
        (upload.offset (bytesPerTexel upload.storageFormat).toNat column row k) := by
  have hx := (fits.boxWrite_corner admitted).1
  have hy := (fits.boxWrite_corner admitted).2
  rw [fits.boxWrite_cells admitted] at member
  obtain ⟨⟨hleft, hright⟩, htop, hbottom⟩ := member
  obtain ⟨i, rfl⟩ := Nat.exists_eq_add_of_le hleft
  obtain ⟨j, rfl⟩ := Nat.exists_eq_add_of_le htop
  have hi : i < width.toNat := Nat.lt_of_add_lt_add_left hright
  have hj : j < rows.toNat := Nat.lt_of_add_lt_add_left hbottom
  have inside : _ < boxBytes upload rows width := offset_lt hi hj hk
  have same := fits.offset_eq admitted (i := i) hj
  rw [InlineWrite.offset, hx, hy, hstride, Nat.add_sub_cancel_left, Nat.add_sub_cancel_left,
    fits.boxWrite_get admitted, if_pos inside]
  have hcolumn : upload.destination.x.toNat + x.toNat + i - upload.destination.x.toNat =
      x.toNat + i := by omega
  have hrow : upload.destination.y.toNat + y.toNat + j - upload.destination.y.toNat =
      y.toNat + j := by omega
  rw [IrTextureUpload.offset, hcolumn, hrow, ← admitted.row, ← same, ← Nat.add_assoc]
  rfl

/-- A packet of the loops carries its box. -/
theorem inlinePacket_carries (admitted : Admitted resourceId upload maxCommandSize layout)
    (fits : Fits upload layout y rows x width) :
    Carries resourceId upload maxCommandSize
      ((boxWrite resourceId upload layout y rows x width).words.flatMap dwordBytes ++
        (boxWrite resourceId upload layout y rows x width).data)
      (boxWrite resourceId upload layout y rows x width) := by
  obtain ⟨hspan, hbox, hpayload⟩ := fits.boxBytes_le admitted
  have hinside : boxStart upload layout y x + boxBytes upload rows width ≤ upload.pixels.length :=
    fits.inside admitted
  have hmax := admitted.payload
  have hfixed := admitted.fixed
  have hwords : 11 + (boxBytes upload rows width + 3) / 4 < 2 ^ 16 := by omega
  have hheader : payloadLength (boxWrite resourceId upload layout y rows x width).header =
      11 + (boxBytes upload rows width + 3) / 4 :=
    payloadLength_header (by decide) (by decide) hwords
  have hdata : (boxWrite resourceId upload layout y rows x width).data.length =
      4 * ((boxBytes upload rows width + 3) / 4) := Bytes.resize_length ..
  have hlength : ((boxWrite resourceId upload layout y rows x width).words.flatMap dwordBytes ++
      (boxWrite resourceId upload layout y rows x width).data).length =
        48 + 4 * ((boxBytes upload rows width + 3) / 4) := by
    rw [List.length_append, hdata, flatMap_dwordBytes_length]
    rfl
  have hstride : (boxWrite resourceId upload layout y rows x width).stride.toNat =
      width.toNat * (bytesPerTexel upload.storageFormat).toNat :=
    UInt32.toNat_ofNat_of_lt' (by change _ < 2 ^ 32; omega)
  have hlayer : (boxWrite resourceId upload layout y rows x width).layerStride.toNat =
      boxBytes upload rows width := UInt32.toNat_ofNat_of_lt' (by change _ < 2 ^ 32; omega)
  exact {
    read := readInlineWrite_words ..
    size := by omega
    length := by
      rw [hlength, hheader]
      omega
    length_lt := by omega
    command := commandOf_header (by decide) (by decide) hwords
    object := objectOf_header (by decide) (by decide) hwords
    resource := rfl
    level := rfl
    layer := rfl
    depth := rfl
    stride := hstride
    layerStride := by
      rw [hlayer, hstride]
      rfl
    data := by rw [hdata, hlayer]
    padding := fun i hi => by rw [fits.boxWrite_get admitted, if_neg (by omega)]
    texels := fun _ _ _ => fits.boxWrite_texel admitted hstride }

end Packet

end Sgfx.Virgl.TextureUploads
