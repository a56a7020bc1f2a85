import Sgfx.Library.Slices
import Sgfx.Owned
import Sgfx.Vulkan.Readbacks

/-!
# Indirect draws

The parameters of an indirect draw are records in a buffer.  They are decoded on the host: from
the host mirror of the buffer where no tracked write of the device may have changed them, else from
bytes that the backend reads back.  Both go through `expand`.

An index out of bounds and a sum or product that overflows is a panic.

## Main Definitions

* `IndirectDraw`, `IndirectRead`
* `expand`
* `readHost`, `read` — the commands, from the mirror and from the backend
* `recordDraw`
-/

namespace Sgfx.Vulkan

/-- `Draw`. -/
structure IndirectDraw where
  buffer : BufferHandle
  offset : UInt64
  count : UInt32
  stride : UInt32
  indexed : Bool
  counter : Option (BufferHandle × UInt64)
  firstInstanceEnabled : Bool
deriving DecidableEq, Repr

/-- `Read`, without the cell for the commands. -/
structure IndirectRead where
  draw : IndirectDraw
  hostPrefix : Bool
deriving DecidableEq, Repr

/-- The bytes of a record. -/
def recordSize (indexed : Bool) : UInt64 := if indexed then 20 else 16

/-- `Draw::byte_len`. -/
def IndirectDraw.byteLen (draw : IndirectDraw) (count : UInt32) : Option UInt64 :=
  if count = 0 then some 0
  else do
    let strides ← checkedMul64 (count - 1).toUInt64 draw.stride.toUInt64
    checkedAdd64 strides (recordSize draw.indexed)

/-- `Draw::range`. -/
def IndirectDraw.range (draw : IndirectDraw) : Option MemoryRange := do
  let length ← draw.byteLen draw.count
  let stop ← checkedAdd64 draw.offset length
  return ⟨draw.offset.toNat, stop.toNat⟩

/-- `Read::new`. -/
def IndirectRead.new (resources : Resources) (writes : Readbacks) (draw : IndirectDraw) :
    IndirectRead where
  draw := draw
  hostPrefix := draw.counter.isNone &&
    draw.range.any fun range => !writes.mayWrite resources draw.buffer range

/-- The word at `base + offset`. -/
def word (bytes : List UInt8) (base offset : Nat) : Except Stop UInt32 := do
  let start ← orPanic (checkedAddUsize base offset)
  let stop ← orPanic (checkedAddUsize start 4)
  let part ← orPanic (indexRange bytes start stop)
  return .ofNat (Bytes.fromLeBytes part)

/-- The commands of the record at `index`: one turn of the loop of `expand`. -/
def expandRecord (draw : IndirectDraw) (bytes : List UInt8) (drawParameters : Bool)
    (index : Nat) : Except Stop (List OwnedCommand) := do
  let base ← orPanic (checkedMul64 (.ofNat index) draw.stride.toUInt64)
  let vertices ← word bytes base.toNat 0
  let instances ← word bytes base.toNat 4
  let first ← word bytes base.toNat 8
  let firstInstance ← word bytes base.toNat (if draw.indexed then 16 else 12)
  failIf ((checkedAdd32 instances firstInstance).isNone = true ∨
    (draw.firstInstanceEnabled = false ∧ firstInstance ≠ 0) ∨
    (draw.indexed = false ∧ (checkedAdd32 vertices first).isNone = true)) invalid
  if vertices = 0 ∨ instances = 0 then return []
  let command ← (if draw.indexed then do
      let baseVertex ← word bytes base.toNat 12
      return .drawIndexedInstanced vertices first baseVertex.toInt32 instances firstInstance
    else return .drawInstanced vertices first instances firstInstance : Except Stop OwnedCommand)
  return (if drawParameters then [.setDrawIndex (.ofNat index)] else []) ++ [command]

/-- `expand`. -/
def expand (draw : IndirectDraw) (count : UInt32) (bytes : List UInt8) (drawParameters : Bool) :
    Except Stop (List OwnedCommand) := do
  let needed ← okOr (draw.byteLen count) invalid
  failIf (draw.count < count ∨ bytes.length < needed.toNat) invalid
  (List.range count.toNat).foldlM (fun commands index => do
    return commands ++ (← expandRecord draw bytes drawParameters index)) []

/-- `source`: the bytes of the mirror, where the host may read them. -/
def IndirectRead.source (resources : Resources) (read : IndirectRead) : Option (List UInt8) :=
  if read.draw.counter.isSome then none
  else if read.hostPrefix = false then none
  else do
    let (memory, range) ← allocationRange resources read.draw.buffer (← read.draw.range)
    indexRange (← resources.mirror memory) range.start range.stop

/-- `read_host`: the commands, or nothing where the backend must be waited for. -/
def readHost (resources : Resources) (read : IndirectRead) (drawParameters : Bool) :
    Except Stop (Option (List OwnedCommand)) :=
  match read.source resources with
  | some bytes => do
      return some (← expand read.draw read.draw.count bytes drawParameters)
  | none => return none

/-- `read`.  `readBuffer` is what the backend reads back of a buffer. -/
def read (resources : Resources)
    (readBuffer : BufferId → UInt64 → UInt64 → Except VkResult (List UInt8))
    (read : IndirectRead) (drawParameters : Bool) : Except Stop (List OwnedCommand) := do
  let draw := read.draw
  let count ← (match draw.counter with
    | some (handle, offset) => do
        let data ← okOr (resources.buffers handle) invalid
        let bytes ← (readBuffer data.id offset 4).mapError .failed
        return min draw.count (← word bytes 0 0)
    | none => return draw.count : Except Stop UInt32)
  if count = 0 then return []
  let length ← okOr (draw.byteLen count) invalid
  let data ← okOr (resources.buffers draw.buffer) invalid
  let bytes ← (readBuffer data.id draw.offset length).mapError .failed
  expand draw count bytes drawParameters

/-- The features of the device that recording an indirect draw depends on. -/
structure IndirectFeatures where
  multiDrawIndirect : Bool
  indirectCount : Bool
  indirectFirstInstance : Bool
deriving DecidableEq, Repr

/-- `record_draw`. -/
def recordDraw (features : IndirectFeatures) (buffer : BufferHandle) (offset : UInt64)
    (count stride : UInt32) (indexed : Bool) (counter : Option (BufferHandle × UInt64)) :
    Except VkResult IndirectDraw := do
  failIf ((1 < count ∧ features.multiDrawIndirect = false) ∨
    (counter.isSome ∧ features.indirectCount = false)) .errorFeatureNotPresent
  let size : UInt32 := if indexed then 20 else 16
  failIf (4096 < count ∨ offset % 4 ≠ 0 ∨ (1 < count ∧ (stride < size ∨ stride % 4 ≠ 0)) ∨
    counter.any (fun counter => counter.2 % 4 != 0) = true) .errorInitializationFailed
  return { buffer, offset, count, stride := if count ≤ 1 then size else stride, indexed, counter,
           firstInstanceEnabled := features.indirectFirstInstance }

end Sgfx.Vulkan
