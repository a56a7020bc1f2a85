import Sgfx.Rejection
import Sgfx.Owned

/-!
# Upload batches

A recording with many texture uploads is cut into batches, none of which uploads more than a
budget of bytes.  Cuts fall between passes, and an upload that is larger than the budget is
replaced by uploads of its rows.  A batch is one draw plan of the backend, so that buffers are not
written behind a render pass of the batch, and render and compute passes are not mixed.

Every payload has its own place in memory, so the number of bytes of a recording is below `2 ^ 64`
and the additions of the source, saturating or not, are plain ones here.

## Main Definitions

* `uploadBytes`, `PlanBoundary`, `needsBatches`
* `Upload` — a texture upload, whichever command makes it
* `split`
-/

namespace Sgfx.Vulkan

/-- `upload_bytes`. -/
def uploadBytes : OwnedCommand → Option Nat
  | .writeTexture _ _ _ data | .writeTextureMip _ _ _ _ data
  | .writeTextureLayer _ _ _ _ _ data => some data.len
  | .writeBuffer .. | .resourceBarrier (.texture ..) | .resourceBarrier (.textureMip ..)
  | .copyTextureToTexture .. | .blitTexture .. | .blitTextureRegion .. => some 0
  | _ => none

/-- `upload_bytes(..).unwrap_or(0)`. -/
def textureBytes (c : OwnedCommand) : Nat := (uploadBytes c).getD 0

/-- A command that begins a render pass. -/
def beginsRender : OwnedCommand → Bool
  | .beginRenderPass _ | .beginRenderPassWithAttachments .. => true
  | _ => false

/-- A command that begins a compute pass. -/
def beginsCompute : OwnedCommand → Bool
  | .beginComputePass => true
  | _ => false

/-- A command that writes a buffer outside passes. -/
def writesBuffer : OwnedCommand → Bool
  | .writeBuffer .. | .copyBufferToBuffer .. => true
  | _ => false

/-- The passes of a batch so far. -/
structure PlanBoundary where
  rendered : Bool
  computed : Bool
deriving DecidableEq

namespace PlanBoundary

/-- `PlanBoundary::default`. -/
def empty : PlanBoundary := ⟨false, false⟩

/-- `PlanBoundary::requires_split`. -/
def requiresSplit (plan : PlanBoundary) (c : OwnedCommand) : Bool :=
  if writesBuffer c || beginsCompute c then plan.rendered
  else if beginsRender c then plan.computed
  else false

/-- `PlanBoundary::record`. -/
def record (plan : PlanBoundary) (c : OwnedCommand) : PlanBoundary :=
  if beginsRender c then { plan with rendered := true }
  else if beginsCompute c then { plan with computed := true }
  else plan

end PlanBoundary

/-- The loop of `needs_batches`, whose two flags are those of a plan. -/
def needsBatchesFrom (budget : Nat) (plan : PlanBoundary) (bytes : Nat) :
    List OwnedCommand → Bool
  | [] => false
  | c :: rest =>
    plan.requiresSplit c || decide (budget < bytes + textureBytes c) ||
      needsBatchesFrom budget (plan.record c) (bytes + textureBytes c) rest

/-- `needs_batches`. -/
def needsBatches (commands : List OwnedCommand) (budget : Nat) : Bool :=
  needsBatchesFrom budget .empty 0 commands

/-! ## Uploads -/

/-- A texture upload. -/
structure Upload where
  texture : TextureId
  mipLevel : UInt32
  arrayLayer : UInt32
  rect : PixelRect
  stride : UInt32
  data : Payload
deriving DecidableEq

/-- The upload that a command makes. -/
def uploadOf : OwnedCommand → Option Upload
  | .writeTexture texture rect stride data => some ⟨texture, 0, 0, rect, stride, data⟩
  | .writeTextureMip texture mipLevel rect stride data =>
    some ⟨texture, mipLevel, 0, rect, stride, data⟩
  | .writeTextureLayer texture mipLevel arrayLayer rect stride data =>
    some ⟨texture, mipLevel, arrayLayer, rect, stride, data⟩
  | _ => none

/-- Where a new payload is put. -/
abbrev Placement := List UInt8 → { address : UInt64 // address ≠ 0 }

/-- A new payload, which is never longer than half of the address space. -/
def newPayload (place : Placement) (bytes : List UInt8) : Except Error Payload :=
  if h : bytes.length < 2 ^ 63 then .ok ⟨bytes, (place bytes).1, (place bytes).2, h⟩
  else .error .outOfMemory

namespace Upload

variable (u : Upload)

/-- The command of a piece. -/
def command : OwnedCommand :=
  .writeTextureLayer u.texture u.mipLevel u.arrayLayer u.rect u.stride u.data

/-- The bytes of one row, without those that pad it. -/
def row (rowBytes y : Nat) : List UInt8 := (u.data.bytes.drop (y * u.stride.toNat)).take rowBytes

/-- The rows of a piece, put one behind the other. -/
def pixels (rowBytes start rows : Nat) : List UInt8 :=
  (List.range rows).flatMap fun y => u.row rowBytes (start + y)

/-- The upload of some rows. -/
def piece (place : Placement) (rowBytes start rows : Nat) : Except Error Upload := do
  let data ← newPayload place (u.pixels rowBytes start rows)
  let destination ← PixelRect.new u.rect.x (u.rect.y + .ofNat start) u.rect.width (.ofNat rows)
  pure ⟨u.texture, u.mipLevel, u.arrayLayer, destination, .ofNat rowBytes, data⟩

end Upload

/-! ## Batches -/

/-- The batches that are complete, and the one that is open. -/
structure Batching where
  batches : List (List OwnedCommand)
  batch : List OwnedCommand
  bytes : Nat
  inPass : Bool
  plan : PlanBoundary

namespace Batching

/-- No batches. -/
def empty : Batching := ⟨[], [], 0, false, .empty⟩

/-- Complete the open batch. -/
def cut (B : Batching) : Batching :=
  { B with batches := B.batches ++ [B.batch], batch := [], bytes := 0, plan := .empty }

/-- Add a command to the open batch. -/
def add (B : Batching) (c : OwnedCommand) : Batching := { B with batch := B.batch ++ [c] }

/-- Complete the open batch, if there is one and it is over the budget with some more bytes. -/
def cutOver (budget length : Nat) (B : Batching) : Batching :=
  if budget < B.bytes + length ∧ B.batch ≠ [] then B.cut else B

/-- `push`. -/
def push (budget : Nat) (B : Batching) (c : OwnedCommand) : Batching :=
  let B := B.cutOver budget (textureBytes c)
  { B.add c with plan := B.plan.record c, bytes := B.bytes + textureBytes c }

/-- `(0..height).step_by(rows)`. -/
def rowStarts (height rows : Nat) : List Nat :=
  (List.range ((height + rows - 1) / rows)).map (· * rows)

/-- The rows of one piece. -/
def pushPiece (place : Placement) (budget rowBytes rowsPerChunk : Nat) (u : Upload) (B : Batching)
    (start : Nat) : Except Error Batching := do
  let rows := min rowsPerChunk (u.rect.height.toNat - start)
  let piece ← u.piece place rowBytes start rows
  pure (B.push budget piece.command)

/-- The pieces of an upload that is larger than the budget. -/
def pushRows (T : ResourceTable) (place : Placement) (budget : Nat) (B : Batching) (u : Upload) :
    Except Error Batching := do
  let reference ← T.textureRef u.texture
  let desc ← T.texture reference
  let pixelBytes ← okOr desc.format.bytesPerPixel Error.invalidValue
  let rowBytes := u.rect.width.toNat * pixelBytes.toNat
  failIf (budget < rowBytes) Error.invalidValue
  let rowsPerChunk := max (budget / rowBytes) 1
  (rowStarts u.rect.height.toNat rowsPerChunk).foldlM
    (pushPiece place budget rowBytes rowsPerChunk u) B

/-- A command outside passes that begins none. -/
def transfer (T : ResourceTable) (place : Placement) (budget : Nat) (B : Batching)
    (c : OwnedCommand) : Except Error Batching :=
  if textureBytes c ≤ budget then .ok (B.push budget c)
  else match uploadOf c with
    | some u => B.pushRows T place budget u
    | none => .error .invalidValue -- not reached: all others have no upload bytes

/-- Begin a pass, in a new batch if the open one has used up the budget. -/
def beginPass (budget : Nat) (B : Batching) (c : OwnedCommand) : Batching :=
  let B := if budget ≤ B.bytes ∧ B.batch ≠ [] then B.cut else B
  { B.add c with plan := B.plan.record c, inPass := true }

/-- Complete the open batch if it cannot be continued with a command outside passes. -/
def newPlan (B : Batching) (c : OwnedCommand) : Batching :=
  if B.inPass = false ∧ B.plan.requiresSplit c = true then B.cut else B

/-- One command of the loop of `split`. -/
def step (T : ResourceTable) (place : Placement) (budget : Nat) (B : Batching)
    (c : OwnedCommand) : Except Error Batching :=
  let B := B.newPlan c
  match c with
  | .beginRenderPass _ | .beginRenderPassWithAttachments .. | .beginComputePass =>
    .ok (B.beginPass budget c)
  | .endRenderPass | .endComputePass => .ok { B.add c with inPass := false }
  | c => if B.inPass then .ok (B.add c) else B.transfer T place budget c

/-- The batches, with the open one if there is one. -/
def all (B : Batching) : List (List OwnedCommand) :=
  if B.batch ≠ [] then B.batches ++ [B.batch] else B.batches

end Batching

/-- `split`. -/
def split (T : ResourceTable) (place : Placement) (owned : List OwnedCommand) (budget : Nat) :
    Except Error (List (List OwnedCommand)) := do
  failIf (budget = 0) Error.invalidValue
  validate T grantAll owned
  if needsBatches owned budget then do
    let B ← owned.foldlM (Batching.step T place budget) .empty
    forEach B.all (validate T grantAll)
    pure B.all
  else pure [owned]

end Sgfx.Vulkan
