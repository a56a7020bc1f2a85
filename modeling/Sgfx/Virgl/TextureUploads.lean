import Sgfx.Library.FueledLoops
import Sgfx.Library.SliceCopies
import Sgfx.Virgl.DrawCommands
import Sgfx.Virgl.DrawSubmissions

/-!
# Inline texture uploads

The pixels of a texture upload travel inside the command stream: each `RESOURCE_INLINE_WRITE`
packet has eleven words that place a box of the texture and then the bytes of its texels.  The
upload is cut into such packets by two loops, over groups of whole rows and, where a row alone is
longer than a packet, over spans of it.

## Main Definitions

* `IrTextureUpload`
* `inlineLayout` — the checks before the loops; `inlinePacket` — one packet
* `submitIrTextureInlineWrite`
-/

namespace Sgfx.Virgl.TextureUploads

open Draws

/-- `IrTextureUpload`. -/
structure IrTextureUpload where
  texture : IrTextureSpec
  destination : IrRect
  pixels : List UInt8
  storageFormat : IrTextureFormat
  mipLevel : UInt32
  arrayLayer : UInt32
deriving DecidableEq, Repr

/-- `IrTextureFormat::bytes_per_texel`. -/
def bytesPerTexel : IrTextureFormat → UInt64
  | .r8 => 1
  | .rg8 => 2
  | .rgba16Float => 8
  | .rgba32Float => 16
  | .bgra8 | .rgba8 | .depth32Float => 4

def VIRGL_CCMD_RESOURCE_INLINE_WRITE : UInt32 := 9

/-- `FIXED_BYTES`: the header and the eleven words that place the box. -/
def FIXED_BYTES : UInt64 := 12 * 4

/-- `MAX_PACKET_BYTES`: a header counts the words after it in sixteen bits. -/
def MAX_PACKET_BYTES : UInt64 := (0xffff + 1) * 4

/-- `push_dword`. -/
def pushDword (commands : List UInt8) (value : UInt32) : List UInt8 :=
  commands ++ Bytes.toLeBytes 4 value.toNat

/-- `max_payload`: the pixel bytes of one packet under the limit. -/
def maxPayload (maxCommandSize : UInt64) : Option UInt64 :=
  let bytes := min maxCommandSize MAX_PACKET_BYTES
  if bytes < FIXED_BYTES then none
  else (some ((bytes - FIXED_BYTES) &&& ~~~3)).filter (4 ≤ ·)

/-- What the loops compute with. -/
structure InlineLayout where
  maxPayload : UInt64
  bytesPerTexel : UInt64
  rowBytes : UInt64
deriving DecidableEq, Repr

/-- The formats that an inline write stores. -/
def inlineStorageFormat : IrTextureFormat → Bool
  | .bgra8 | .r8 | .rg8 | .depth32Float | .rgba16Float | .rgba32Float => true
  | .rgba8 => false

/-- The part before the loops.  `reserve` answers whether a buffer of so many bytes can be
allocated. -/
def inlineLayout (reserve : UInt64 → Bool) (resourceId : UInt32) (upload : IrTextureUpload)
    (maxCommandSize : UInt64) : Except HandleError InlineLayout := do
  let maxPayload ← okOr (maxPayload maxCommandSize) .invalidParameter
  let rect := upload.destination
  let bytesPerTexel := bytesPerTexel upload.storageFormat
  let rowBytes ← okOr (checkedMul64 rect.width.toUInt64 bytesPerTexel) .invalidParameter
  let byteLen ← okOr (checkedMul64 rowBytes rect.height.toUInt64) .invalidParameter
  failIf (resourceId = 0 ∨ upload.texture.arrayLayers ≤ upload.arrayLayer ∨
    upload.texture.mipLevels ≤ upload.mipLevel ∨ 32 ≤ upload.mipLevel ∨
    irRectIsWithin rect (max (upload.texture.width >>> upload.mipLevel) 1)
      (max (upload.texture.height >>> upload.mipLevel) 1) = false ∨
    inlineStorageFormat upload.storageFormat = false ∨
    (upload.texture.format = .depth32Float ∧ upload.storageFormat ≠ .depth32Float) ∨
    (upload.storageFormat ≠ .bgra8 ∧ upload.storageFormat ≠ upload.texture.format) ∨
    upload.pixels.length ≠ byteLen.toNat) .invalidParameter
  failIf (reserve (FIXED_BYTES + ((min maxPayload byteLen + 3) &&& ~~~3)) = false) .outOfResources
  return { maxPayload, bytesPerTexel, rowBytes }

/-- `rows`: as many whole rows as fit, or one that is cut into spans. -/
def inlineRows (layout : InlineLayout) (upload : IrTextureUpload) (y : UInt32) : UInt32 :=
  if layout.rowBytes ≤ layout.maxPayload then
    (min (layout.maxPayload / layout.rowBytes) (upload.destination.height - y).toUInt64).toUInt32
  else 1

/-- `width`: the columns of the packet at `x`. -/
def inlineWidth (layout : InlineLayout) (upload : IrTextureUpload) (x : UInt32) : UInt32 :=
  min (upload.destination.width - x) (layout.maxPayload / layout.bytesPerTexel).toUInt32

/-- The packet of `rows` rows from `y` and `width` columns from `x`. -/
def inlinePacket (resourceId : UInt32) (upload : IrTextureUpload) (layout : InlineLayout)
    (y rows x width : UInt32) : Except HandleError (List UInt8) := do
  let rect := upload.destination
  let stride := width * layout.bytesPerTexel.toUInt32
  let length := stride.toUInt64 * rows.toUInt64
  let paddedLength := (length + 3) &&& ~~~3
  let start := y.toUInt64 * layout.rowBytes + x.toUInt64 * layout.bytesPerTexel
  let pixels ← okOr (indexRange upload.pixels start.toNat (start + length).toNat) .invalidParameter
  let commands := pushDword [] (commandHeader VIRGL_CCMD_RESOURCE_INLINE_WRITE 0
    (11 + (paddedLength / 4).toUInt32))
  let commands := pushDword commands resourceId
  let commands := pushDword commands upload.mipLevel
  let commands := pushDword commands 0
  let commands := pushDword commands stride
  let commands := pushDword commands length.toUInt32
  let commands := pushDword commands (rect.x + x)
  let commands := pushDword commands (rect.y + y)
  let commands := pushDword commands upload.arrayLayer
  let commands := pushDword commands width
  let commands := pushDword commands rows
  let commands := pushDword commands 1
  return Bytes.resize (commands ++ pixels) (FIXED_BYTES + paddedLength).toNat

section Submission

variable {σ : Type} (resourceId : UInt32) (upload : IrTextureUpload) (layout : InlineLayout)
  (submit : List UInt8 → Fallible σ HandleError Unit)

/-- The inner loop: `x` runs over the columns of a group of rows. -/
def submitSpans (y rows : UInt32) : UInt32 → Fueled σ HandleError UInt32 :=
  Fueled.whileDo (fun x => x < upload.destination.width) fun x => do
    let width := inlineWidth layout upload x
    let packet ← (inlinePacket resourceId upload layout y rows x width : Fallible σ HandleError _)
    submit packet
    return x + width

/-- The outer loop: `y` runs over the rows of the rectangle. -/
def submitRows : UInt32 → Fueled σ HandleError UInt32 :=
  Fueled.whileDo (fun y => y < upload.destination.height) fun y => do
    let rows := inlineRows layout upload y
    let _ ← submitSpans resourceId upload layout submit y rows 0
    return y + rows

/-- `submit_ir_texture_inline_write`. -/
def submitIrTextureInlineWrite (reserve : UInt64 → Bool) (maxCommandSize : UInt64) :
    Fueled σ HandleError Unit := do
  let layout ← (inlineLayout reserve resourceId upload maxCommandSize : Fallible σ HandleError _)
  let _ ← submitRows resourceId upload layout submit 0
  return ()

end Submission

end Sgfx.Virgl.TextureUploads
