import Sgfx.Types

/-!
# Results of the Vulkan backend

Errors of the core are reported as Vulkan results.

## Main Definitions

* `VkResult` — the results that a failed call reports
* `failure`
-/

namespace Sgfx.Vulkan

/-- `vk::Result`, as far as failed calls of this backend report it. -/
inductive VkResult where
  | errorOutOfHostMemory
  | errorOutOfDeviceMemory
  | errorInitializationFailed
  | errorDeviceLost
  | errorFeatureNotPresent
deriving DecidableEq, Repr

/-- `failure`. -/
def failure : Error → VkResult
  | .outOfMemory => .errorOutOfHostMemory
  | .resourceLimitExceeded => .errorOutOfDeviceMemory
  | _ => .errorFeatureNotPresent

/-- `result.map_err(failure)`. -/
def mapFailure {α : Type} : Except Error α → Except VkResult α
  | .ok a => .ok a
  | .error e => .error (failure e)

@[simp] theorem mapFailure_eq_ok {α : Type} {x : Except Error α} {a : α} :
    mapFailure x = .ok a ↔ x = .ok a := by
  cases x with
  | ok b => rw [mapFailure, Except.ok.injEq, Except.ok.injEq]
  | error e =>
    constructor
    · intro h
      cases h
    · intro h
      cases h

end Sgfx.Vulkan
