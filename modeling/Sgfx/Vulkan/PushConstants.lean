import Sgfx.Library.Agreement
import Sgfx.Library.Cuts
import Sgfx.Library.SliceCopies
import Sgfx.PipelineBuilders
import Sgfx.Vulkan.Results
import Sgfx.Vulkan.UploadBatches

/-!
# Push constants

Commands set push constants piece by piece, and the backend sets all those that a layout declares
before each draw.  Every stage has its own bytes, and each of them knows the ranges of the layout
through which it was written last.  Ranges of different stages overlap, so a snapshot is cut where
ranges start and end.

## Main Definitions

* `PushConstants`, `PushConstants.update`, `PushConstants.snapshot`
-/

namespace Sgfx.Vulkan

/-- `STAGES`. -/
def STAGES : List ShaderStage := [.vertex, .fragment, .compute]

/-- `LENGTH`. -/
def LENGTH : Nat := MAX_PUSH_CONSTANT_BYTES

/-- The bytes of each stage, and the index of the ranges through which each was written.  The
arrays have `LENGTH` elements. -/
@[ext]
structure PushConstants where
  bytes : ShaderStage → List UInt8
  owners : ShaderStage → List (Option Nat)
  layouts : List (List PushConstantRange)

namespace PushConstants

/-- `PushConstants::default`. -/
def default : PushConstants where
  bytes := fun _ => List.replicate LENGTH 0
  owners := fun _ => List.replicate LENGTH none
  layouts := []

/-! ## Updates -/

/-- The index of some ranges, which are stored if they are new. -/
def owner (constants : PushConstants) (ranges : List PushConstantRange) : Nat × PushConstants :=
  match constants.layouts.findIdx? fun stored => decide (stored = ranges) with
  | some index => (index, constants)
  | none => (constants.layouts.length, { constants with layouts := constants.layouts ++ [ranges] })

/-- Whether an update of one stage changes its values or their owners. -/
def differs (constants : PushConstants) (owner start : Nat) (data : List UInt8)
    (stage : ShaderStage) : Bool :=
  ((constants.bytes stage).drop start).take data.length != data ||
    (((constants.owners stage).drop start).take data.length).any (· != some owner)

/-- Copy into the bytes of one stage, and fill its owners. -/
def writeStage (constants : PushConstants) (owner start : Nat) (data : List UInt8)
    (stage : ShaderStage) : PushConstants where
  bytes := Function.update constants.bytes stage
    (Bytes.splice (constants.bytes stage) start data)
  owners := Function.update constants.owners stage
    (Bytes.splice (constants.owners stage) start (List.replicate data.length (some owner)))
  layouts := constants.layouts

/-- The body of the loop of `update`. -/
def updateStage (stages : ShaderStages) (owner start : Nat) (data : List UInt8)
    (state : Bool × PushConstants) (stage : ShaderStage) : Bool × PushConstants :=
  if stages.has stage then
    (state.1 || state.2.differs owner start data stage, state.2.writeStage owner start data stage)
  else state

/-- `PushConstants::update`: whether values or owners have changed. -/
def update (layout : PipelineLayoutDesc) (stages : ShaderStages) (offset : UInt32)
    (data : Payload) (constants : PushConstants) : Except VkResult Bool × PushConstants :=
  match mapFailure (layout.validatePushConstants stages offset data.slice) with
  | .error failure => (.error failure, constants)
  | .ok _ =>
    let (owner, constants) := constants.owner layout.pushConstantRanges
    let (changed, constants) :=
      STAGES.foldl (updateStage stages owner offset.toNat data.bytes) (false, constants)
    (.ok changed, constants)

/-! ## Snapshots -/

/-- Where a range ends. -/
def stop (range : PushConstantRange) : Nat := range.offset.toNat + range.size.toNat

/-- Where ranges start and end. -/
def boundaries (ranges : List PushConstantRange) : List Nat :=
  cuts (ranges.flatMap fun range => [range.offset.toNat, stop range])

/-- The stages of the ranges that contain a window. -/
def windowStages (ranges : List PushConstantRange) (window : Nat × Nat) : ShaderStages :=
  ranges.foldl (fun stages range =>
    if range.offset.toNat ≤ window.1 ∧ window.2 ≤ stop range then stages.union range.stages
    else stages) .empty

/-- One byte of one stage, which must have been written through the ranges, and agree with the
other stages, if it has been written at all. -/
def gather (constants : PushConstants) (ranges : List PushConstantRange) (start : Nat)
    (found : Gathered UInt8) (place : ShaderStage × Nat) : Except VkResult (Gathered UInt8) :=
  match (constants.owners place.1).getD place.2 none with
  | none => .ok found
  | some owner => do
    failIf (constants.layouts[owner]? ≠ some ranges) VkResult.errorInitializationFailed
    found.note .errorInitializationFailed (place.2 - start) (Bytes.get (constants.bytes place.1) place.2)

/-- The bytes of the stages in a window, stage by stage. -/
def places (stages : ShaderStages) (window : Nat × Nat) : List (ShaderStage × Nat) :=
  (STAGES.filter fun stage => stages.has stage).flatMap fun stage =>
    (List.range' window.1 (window.2 - window.1)).map fun byte => (stage, byte)

/-- The command of one window; none where no stage declares it. -/
def windowCommand (place : Placement) (constants : PushConstants)
    (ranges : List PushConstantRange) (window : Nat × Nat) :
    Except VkResult (Option OwnedCommand) :=
  let stages := windowStages ranges window
  if stages.isEmpty then .ok none
  else do
    let found ← (places stages window).foldlM (constants.gather ranges window.1)
      (.blank 0 (window.2 - window.1))
    let data ← mapFailure (newPayload place found.values)
    pure (some (.setPushConstants stages (.ofNat window.1) data))

/-- `PushConstants::snapshot`. -/
def snapshot (place : Placement) (layout : PipelineLayoutDesc) (constants : PushConstants) :
    Except VkResult (List OwnedCommand) := do
  let ranges := layout.pushConstantRanges
  let commands ← (windows (boundaries ranges)).mapM (windowCommand place constants ranges)
  pure (commands.filterMap id)

end PushConstants

end Sgfx.Vulkan
