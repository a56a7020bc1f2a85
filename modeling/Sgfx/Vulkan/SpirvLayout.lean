import Sgfx.Vulkan.SpirvTables
import Sgfx.Vulkan.SpirvValues

/-!
# Layouts of SPIR-V types

Where the parts of a value lie is what the module decorates its types with: members of structures
have offsets and arrays have strides.  The components of a vector follow each other.

## Main Definitions

* `layoutOf` — the layout of the types of a module

## Main Results

* `layoutOf_struct`, `layoutOf_array`, `layoutOf_vector`
-/

namespace Sgfx.Vulkan.Spirv

/-- The declaration of a type. -/
def typeDeclared (i : List UInt32) : Option (UInt32 × List UInt32) :=
  if 19 ≤ opcode i ∧ opcode i ≤ 38 ∧ 2 ≤ i.length then some (i.getD 1 0, i) else none

/-- The stride of an array. -/
def strideOf (i : List UInt32) : Option (UInt32 × UInt32) :=
  if opcode i = 71 ∧ i.length = 4 ∧ i.getD 2 0 = 6 then some (i.getD 1 0, i.getD 3 0) else none

/-- The offset of a member. -/
def offsetOf (index : UInt32) (i : List UInt32) : Option (UInt32 × UInt32) :=
  if opcode i = 72 ∧ i.length = 5 ∧ i.getD 2 0 = index ∧ i.getD 3 0 = 35 then
    some (i.getD 1 0, i.getD 4 0) else none

/-- The layout of the types of a module. -/
def layoutOf (code : List (List UInt32)) : Layout := fun type index => do
  let i ← gather typeDeclared code type
  if opcode i = 30 then do
    let part ← (i.drop 2)[index.toNat]?
    let offset ← gather (offsetOf index) code type
    some (offset.toNat, part)
  else if opcode i = 28 ∨ opcode i = 29 then do
    let stride ← gather strideOf code type
    some (stride.toNat * index.toNat, i.getD 2 0)
  else if opcode i = 23 then do
    let part ← gather typeDeclared code (i.getD 2 0)
    some ((part.getD 2 0).toNat / 8 * index.toNat, i.getD 2 0)
  else none

section Layouts

variable {g : Dialect} {bound type part index offset stride : UInt32} {i : List UInt32}
  {code : List (List UInt32)}

theorem typeDeclared_eq_some {id : UInt32} {j : List UInt32} (h : typeDeclared i = some (id, j)) :
    19 ≤ opcode i ∧ opcode i ≤ 38 ∧ 2 ≤ i.length ∧ i.getD 1 0 = id ∧ i = j := by
  unfold typeDeclared at h
  split at h
  · rename_i declares
    obtain ⟨same, rfl⟩ := Prod.mk.inj (Option.some.inj h)
    exact ⟨declares.1, declares.2.1, declares.2.2, same, rfl⟩
  · cases h

/-- A type has one declaration. -/
theorem declared_eq_some_iff (numbered : g.Numbered bound code) :
    gather typeDeclared code type = some i ↔
      i ∈ code ∧ 19 ≤ opcode i ∧ opcode i ≤ 38 ∧ 2 ≤ i.length ∧ i.getD 1 0 = type := by
  rw [gather_results numbered]
  · constructor
    · rintro ⟨j, member, selected⟩
      obtain ⟨low, high, long, same, rfl⟩ := typeDeclared_eq_some selected
      exact ⟨member, low, high, long, same⟩
    · rintro ⟨member, low, high, long, rfl⟩
      exact ⟨i, member, if_pos ⟨low, high, long⟩⟩
  · intro j _ id k selected
    obtain ⟨low, high, long, rfl, rfl⟩ := typeDeclared_eq_some selected
    exact (Dialect.result_type low high long).1

/-- A member of a structure. -/
theorem layoutOf_struct (declared : gather typeDeclared code type = some i) (op : opcode i = 30)
    (member : (i.drop 2)[index.toNat]? = some part)
    (decorated : gather (offsetOf index) code type = some offset) :
    layoutOf code type index = some (offset.toNat, part) := by
  unfold layoutOf
  rw [declared]
  show (if opcode i = 30 then _ else _) = _
  rw [if_pos op, member, decorated]
  rfl

/-- An element of an array. -/
theorem layoutOf_array (declared : gather typeDeclared code type = some i)
    (op : opcode i = 28 ∨ opcode i = 29) (decorated : gather strideOf code type = some stride) :
    layoutOf code type index = some (stride.toNat * index.toNat, i.getD 2 0) := by
  have other : opcode i ≠ 30 := by rcases op with op | op <;> rw [op] <;> decide
  unfold layoutOf
  rw [declared]
  show (if opcode i = 30 then _ else _) = _
  rw [if_neg other, if_pos op, decorated]
  rfl

/-- A component of a vector. -/
theorem layoutOf_vector {j : List UInt32} (declared : gather typeDeclared code type = some i)
    (op : opcode i = 23) (component : gather typeDeclared code (i.getD 2 0) = some j) :
    layoutOf code type index = some ((j.getD 2 0).toNat / 8 * index.toNat, i.getD 2 0) := by
  unfold layoutOf
  rw [declared]
  show (if opcode i = 30 then _ else _) = _
  rw [if_neg (by rw [op]; decide), if_neg (by rw [op]; decide), if_pos op, component]
  rfl

end Layouts

end Sgfx.Vulkan.Spirv
