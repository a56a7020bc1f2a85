import Mathlib.Data.List.Basic
import Mathlib.Tactic.Common
import Sgfx.Buffers.Diff
import Sgfx.Descriptors
import Sgfx.Library.Fallible
import Sgfx.Library.Intervals
import Sgfx.Library.SliceCopies
import Sgfx.Programmable
import Sgfx.Vulkan.Results

/-!
# Host memory of the Vulkan backend

The resources of a Vulkan device, as far as host-visible bytes depend on them.  A buffer is bound
to a place of an allocation; several buffers may be bound to the same bytes.  An allocation has a
mirror in host memory once it is needed there.

Hash maps are functions, or rows in the order of an iteration; ordered maps are tree maps, or rows
in the order of their keys.  Places are plain numbers: every sum that the source checks is checked
here, and an access out of bounds is a panic.

## Main Definitions

* `Stop` — how a call fails
* `Buffer`, `Memory`, `DescriptorSet`, `Resources`
* `allocationRange` — the place of a part of a buffer in its allocation
* `allocationByte` — the place of a byte of a buffer, with nothing checked
-/

namespace Sgfx.Vulkan

/-- How a call fails: with a result, or by a panic. -/
inductive Stop where
  | failed (result : VkResult)
  | panicked
deriving DecidableEq, Repr

/-- `vk::Result::ERROR_INITIALIZATION_FAILED`. -/
def invalid : Stop := .failed .errorInitializationFailed

/-- A value whose absence is a panic. -/
def orPanic {α : Type} (value : Option α) : Except Stop α := okOr value .panicked

@[simp] theorem orPanic_some {α : Type} (a : α) : orPanic (some a) = .ok a := rfl

/-- `Range<u64>`. -/
abbrev MemoryRange := Span Nat

/-- `vk::Buffer`. -/
abbrev BufferHandle := UInt64

/-- `vk::DeviceMemory`. -/
abbrev DeviceMemory := UInt64

/-- `vk::DescriptorSet`. -/
abbrev DescriptorSetHandle := UInt64

/-- `Buffer`, without the usages. -/
structure Buffer where
  id : BufferId
  size : UInt64
  bound : Option (DeviceMemory × UInt64)
deriving DecidableEq

/-- `Memory`; the bytes are those of the mirror, which may not be materialized. -/
structure Memory where
  bytes : Option (List UInt8)
  mapped : Bool
  hostWritten : Bool
deriving DecidableEq

/-- `vk::DescriptorType`, as far as dynamic offsets depend on it. -/
inductive DescriptorType where
  | uniformBufferDynamic
  | storageBufferDynamic
  | other (raw : Int32)
deriving DecidableEq, Repr

/-- `DescriptorBinding`; the bindings other than buffers are not told apart. -/
inductive DescriptorBinding where
  | buffer (buffer : BufferHandle) (offset range : UInt64)
  | other
deriving DecidableEq, Repr

/-- `DescriptorSet`, as far as buffers depend on it: `types` in the order of the bindings, and
`bindings` in the order of an iteration. -/
structure DescriptorSet where
  types : List (UInt32 × DescriptorType)
  bindingMap : UInt32 → Option UInt32
  bindings : List (UInt32 × DescriptorBinding)
  types_sorted : types.Pairwise fun a b => a.1 < b.1

/-- `Resources`, as far as host-visible bytes depend on it. -/
structure Resources where
  buffers : BufferHandle → Option Buffer
  memories : DeviceMemory → Option Memory
  uploadedUnmappedBuffers : BufferHandle → Bool
  descriptorSets : DescriptorSetHandle → Option DescriptorSet

/-- `memories.get(&memory)?.bytes.materialized_slice()?`. -/
def Resources.mirror (resources : Resources) (memory : DeviceMemory) : Option (List UInt8) :=
  (resources.memories memory).bind Memory.bytes

/-- `allocation_range`. -/
def allocationRange (resources : Resources) (handle : BufferHandle) (range : MemoryRange) :
    Option (DeviceMemory × MemoryRange) := do
  let buffer ← resources.buffers handle
  let (memory, offset) ← buffer.bound
  let allocation ← resources.mirror memory
  if range.stop < range.start ∨ buffer.size.toNat < range.stop then none
  let stop ← checkedAddUsize offset.toNat buffer.size.toNat
  if allocation.length < stop then none
  return (memory, ⟨← checkedAddUsize offset.toNat range.start,
    ← checkedAddUsize offset.toNat range.stop⟩)

/-- The place of a byte of a buffer in its allocation, if the buffer is bound. -/
def allocationByte (resources : Resources) (handle : BufferHandle) (i : Nat) :
    Option (DeviceMemory × Nat) := do
  let (memory, offset) ← (← resources.buffers handle).bound
  return (memory, offset.toNat + i)

theorem checkedAddUsize_eq_some {a b c : Nat} (h : checkedAddUsize a b = some c) : c = a + b := by
  unfold checkedAddUsize at h
  split at h
  · exact (Option.some.inj h).symm
  · cases h

theorem allocationByte_eq_some {resources : Resources} {handle : BufferHandle} {i : Nat}
    {place : DeviceMemory × Nat} :
    allocationByte resources handle i = some place ↔
      ∃ buffer offset, resources.buffers handle = some buffer ∧
        buffer.bound = some (place.1, offset) ∧ place.2 = offset.toNat + i := by
  unfold allocationByte
  cases hbuffer : resources.buffers handle with
  | none => simp
  | some buffer =>
      cases hbound : buffer.bound with
      | none => simp [hbound]
      | some bound =>
          obtain ⟨memory, offset⟩ := bound
          obtain ⟨memory', j⟩ := place
          simp only [Option.bind_eq_bind, Option.bind_some, hbound, Option.pure_def,
            Option.some.injEq, Prod.mk.injEq]
          constructor
          · rintro ⟨rfl, rfl⟩
            exact ⟨buffer, offset, rfl, by rw [hbound], rfl⟩
          · rintro ⟨_, _, rfl, hbound', rfl⟩
            rw [hbound, Option.some.injEq, Prod.mk.injEq] at hbound'
            obtain ⟨rfl, rfl⟩ := hbound'
            exact ⟨rfl, rfl⟩

/-- A range that resolves is inside its buffer, and the buffer inside the mirror. -/
theorem allocationRange_eq_some {resources : Resources} {handle : BufferHandle}
    {range place : MemoryRange} {memory : DeviceMemory}
    (h : allocationRange resources handle range = some (memory, place)) :
    ∃ buffer offset bytes, resources.buffers handle = some buffer ∧
      buffer.bound = some (memory, offset) ∧ resources.mirror memory = some bytes ∧
      range.start ≤ range.stop ∧ range.stop ≤ buffer.size.toNat ∧
      offset.toNat + buffer.size.toNat ≤ bytes.length ∧
      place = ⟨offset.toNat + range.start, offset.toNat + range.stop⟩ := by
  simp only [allocationRange, Option.bind_eq_bind, Option.bind_eq_some_iff] at h
  obtain ⟨buffer, hbuffer, ⟨memory', offset⟩, hbound, bytes, hbytes, h⟩ := h
  split at h
  · cases h
  rename_i inside
  obtain ⟨stop, hstop, h⟩ := Option.bind_eq_some_iff.mp h
  split at h
  · cases h
  rename_i room
  obtain ⟨first, hfirst, h⟩ := Option.bind_eq_some_iff.mp h
  obtain ⟨last, hlast, h⟩ := Option.bind_eq_some_iff.mp h
  rw [Option.pure_def, Option.some.injEq, Prod.mk.injEq] at h
  obtain ⟨rfl, rfl⟩ := h
  rw [checkedAddUsize_eq_some hstop] at room
  rw [checkedAddUsize_eq_some hfirst, checkedAddUsize_eq_some hlast]
  exact ⟨buffer, offset, bytes, hbuffer, hbound, hbytes, by omega, by omega, Nat.le_of_not_lt room, rfl⟩

end Sgfx.Vulkan
