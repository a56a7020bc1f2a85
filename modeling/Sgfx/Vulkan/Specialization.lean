import Mathlib.Logic.Function.Basic
import Sgfx.Library.Bytes
import Sgfx.Vulkan.Spirv

/-!
# Specialization constants

A SPIR-V module is frozen for some specialization values: its specialization constants become plain
constants with the supplied values, or else with their defaults, and expressions of such constants
are computed.

## Main Definitions

* `fold` — scalar expressions of 32 bits
* `freezeInstruction`, `freeze`
-/

namespace Sgfx.Vulkan.Spirv

/-! ## Expressions -/

/-- `i32::checked_div`. -/
def checkedDiv (a b : UInt32) : Option UInt32 :=
  if b = 0 ∨ (a = 0x80000000 ∧ b = 0xffffffff) then none else some (a.toInt32 / b.toInt32).toUInt32

/-- `i32::checked_rem`. -/
def checkedRem (a b : UInt32) : Option UInt32 :=
  if b = 0 ∨ (a = 0x80000000 ∧ b = 0xffffffff) then none else some (a.toInt32 % b.toInt32).toUInt32

/-- `OpSMod`: the remainder has the sign of the divisor. -/
def signedMod (a b : UInt32) : Option UInt32 :=
  (checkedRem a b).map fun r =>
    if r ≠ 0 ∧ (decide (r.toInt32 < 0) != decide (b.toInt32 < 0)) = true then r + b else r

/-- `truth`. -/
def truth (v : Bool) : UInt32 := if v then 1 else 0

/-- The expressions of one operand. -/
def fold1 (op a : UInt32) : Option UInt32 :=
  if op = 113 ∨ op = 114 ∨ op = 124 then some a
  else if op = 126 then some (0 - a)
  else if op = 168 then some (truth (a == 0))
  else if op = 200 then some (~~~a)
  else none

/-- The expressions of two operands that compute numbers. -/
def arithmetic (op a b : UInt32) : Option UInt32 :=
  if op = 128 then some (a + b)
  else if op = 130 then some (a - b)
  else if op = 132 then some (a * b)
  else if op = 134 then if b = 0 then none else some (a / b)
  else if op = 135 then checkedDiv a b
  else if op = 137 then if b = 0 then none else some (a % b)
  else if op = 138 then checkedRem a b
  else if op = 139 then signedMod a b
  else if op = 194 then if 32 ≤ b then none else some (a >>> b)
  else if op = 195 then if 32 ≤ b then none else some (a.toInt32 >>> b.toInt32).toUInt32
  else if op = 196 then if 32 ≤ b then none else some (a <<< b)
  else if op = 197 then some (a ||| b)
  else if op = 198 then some (a ^^^ b)
  else if op = 199 then some (a &&& b)
  else none

/-- The expressions of two operands that compare numbers. -/
def comparison (op a b : UInt32) : Option UInt32 :=
  if op = 170 then some (truth (a == b))
  else if op = 171 then some (truth (a != b))
  else if op = 172 then some (truth (decide (b < a)))
  else if op = 173 then some (truth (decide (b.toInt32 < a.toInt32)))
  else if op = 174 then some (truth (decide (b ≤ a)))
  else if op = 175 then some (truth (decide (b.toInt32 ≤ a.toInt32)))
  else if op = 176 then some (truth (decide (a < b)))
  else if op = 177 then some (truth (decide (a.toInt32 < b.toInt32)))
  else if op = 178 then some (truth (decide (a ≤ b)))
  else if op = 179 then some (truth (decide (a.toInt32 ≤ b.toInt32)))
  else none

/-- The expressions of two operands that are truth values. -/
def logical (op a b : UInt32) : Option UInt32 :=
  if op = 164 then some (truth ((a != 0) == (b != 0)))
  else if op = 165 then some (truth ((a != 0) != (b != 0)))
  else if op = 166 then some (truth (a != 0 || b != 0))
  else if op = 167 then some (truth (a != 0 && b != 0))
  else none

/-- `fold`. -/
def fold (op : UInt32) : List UInt32 → Option UInt32
  | [a] => fold1 op a
  | [a, b] => arithmetic op a b <|> comparison op a b <|> logical op a b
  | [condition, a, b] => if op = 169 then some (if condition ≠ 0 then a else b) else none
  | _ => none

/-! ## Freezing -/

/-- `Specialization`: the data of each specialization id. -/
abbrev Specialization := List (UInt32 × List UInt8)

/-- A map from ids. -/
abbrev IdMap (α : Type) := UInt32 → Option α

/-- No id has an entry. -/
def IdMap.empty {α : Type} : IdMap α := fun _ => none

/-- `HashMap::insert`. -/
def IdMap.insert {α : Type} (m : IdMap α) (id : UInt32) (a : α) : IdMap α :=
  Function.update m id (some a)

theorem IdMap.insert_self {α : Type} {m : IdMap α} {id : UInt32} {a : α} :
    m.insert id a id = some a := Function.update_self ..

theorem IdMap.insert_of_ne {α : Type} {m : IdMap α} {id other : UInt32} {a : α}
    (h : other ≠ id) : m.insert id a other = m other := Function.update_of_ne h ..

theorem IdMap.insert_eq_some {α : Type} {m : IdMap α} {id other : UInt32} {a b : α}
    (h : m.insert id a other = some b) : (other = id ∧ b = a) ∨ m other = some b := by
  unfold IdMap.insert at h
  rw [Function.update_apply] at h
  split at h
  · rename_i same
    exact .inl ⟨same, (Option.some.inj h).symm⟩
  · exact .inr h

theorem IdMap.insert_isSome {α : Type} {m : IdMap α} {id other : UInt32} {a : α}
    (h : other = id ∨ (m other).isSome) : (m.insert id a other).isSome := by
  unfold IdMap.insert
  rw [Function.update_apply]
  split
  · rfl
  · rename_i differ
    exact h.resolve_left differ

/-- `OpDecorate` with a specialization id. -/
def isSpecId (i : List UInt32) : Bool := opcode i == 71 && i.length == 4 && i.getD 2 0 == 1

/-- The specialization ids. -/
def specIds (code : List (List UInt32)) : IdMap UInt32 :=
  (code.filter isSpecId).foldl (fun ids i => ids.insert (i.getD 1 0) (i.getD 3 0)) .empty

/-- `OpTypeBool`, `OpTypeInt` or `OpTypeFloat`. -/
def isScalarType (i : List UInt32) : Bool := opcode i == 20 || opcode i == 21 || opcode i == 22

/-- The scalar types. -/
def scalarTypes (code : List (List UInt32)) : IdMap (List UInt32) :=
  (code.filter isScalarType).foldl (fun types i => types.insert (i.getD 1 0) i) .empty

/-- The opcodes of specialization constants. -/
def isSpecialization (op : UInt32) : Bool :=
  op == 48 || op == 49 || op == 50 || op == 51 || op == 52

/-- The values of constants, after one that is not specialized. -/
def recordConstant (constants : IdMap UInt32) (i : List UInt32) : IdMap UInt32 :=
  if (opcode i = 41 ∨ opcode i = 42) ∧ i.length = 3 then
    constants.insert (i.getD 2 0) (truth (opcode i == 41))
  else if opcode i = 43 ∧ i.length = 4 then constants.insert (i.getD 2 0) (i.getD 3 0)
  else constants

/-- The data supplied for a specialization id. -/
def lookupData (values : Specialization) (id : UInt32) : Option (List UInt8) :=
  (values.find? fun entry => entry.1 == id).map Prod.snd

/-- The four bytes of a word; hosts are little-endian. -/
def wordOfData (data : List UInt8) : Except VkResult UInt32 :=
  if data.length = 4 then .ok (.ofNat (Bytes.fromLeBytes data))
  else .error .errorInitializationFailed

/-- The supplied value of a constant. -/
def supplied (ids : IdMap UInt32) (values : Specialization) (id : UInt32) :
    Except VkResult (Option UInt32) :=
  match (ids id).bind (lookupData values) with
  | some data => (wordOfData data).map some
  | none => .ok none

/-- The value of a constant that is not supplied. -/
def evaluate (constants : IdMap UInt32) (i : List UInt32) : Except VkResult UInt32 :=
  if opcode i = 48 then .ok 1
  else if opcode i = 49 then .ok 0
  else if opcode i = 50 ∧ i.length = 4 then .ok (i.getD 3 0)
  else if opcode i = 52 ∧ 5 ≤ i.length then do
    let args ← (i.drop 4).mapM fun id => okOr (constants id) VkResult.errorFeatureNotPresent
    okOr (fold (i.getD 3 0) args) VkResult.errorFeatureNotPresent
  else .error .errorFeatureNotPresent

/-- The value of a specialization constant: a supplied one, or what its instruction says. -/
def resolve (ids : IdMap UInt32) (values : Specialization) (constants : IdMap UInt32)
    (i : List UInt32) : Except VkResult UInt32 := do
  match ← supplied ids values (i.getD 2 0) with
  | some value => pure value
  | none => evaluate constants i

/-- A type of truth values. -/
def isBooleanType (type : List UInt32) : Bool := opcode type == 20

/-- The plain constant. -/
def plainConstant (type i : List UInt32) (value : UInt32) : List UInt32 :=
  if isBooleanType type then emit (if value ≠ 0 then 41 else 42) [i.getD 1 0, i.getD 2 0]
  else emit 43 [i.getD 1 0, i.getD 2 0, value]

/-- The body of the loop of `freeze`: the instructions it emits, and the values of constants. -/
def freezeInstruction (ids : IdMap UInt32) (types : IdMap (List UInt32)) (values : Specialization)
    (constants : IdMap UInt32) (i : List UInt32) :
    Except VkResult (List (List UInt32) × IdMap UInt32) :=
  if isSpecId i then .ok ([], constants)
  else if isSpecialization (opcode i) = false then .ok ([i], recordConstant constants i)
  else if i.length < 3 then .error .errorFeatureNotPresent
  else if opcode i = 51 then .ok ([emit 44 (i.drop 1)], constants)
  else do
    let type ← okOr (types (i.getD 1 0)) VkResult.errorFeatureNotPresent
    failIf (isBooleanType type = false ∧ (type.length < 3 ∨ type.getD 2 0 ≠ 32))
      VkResult.errorFeatureNotPresent
    let value ← resolve ids values constants i
    pure ([plainConstant type i value], constants.insert (i.getD 2 0) value)

/-- The loop of `freeze`, as the instructions that it emits. -/
def freezeLoop (ids : IdMap UInt32) (types : IdMap (List UInt32)) (values : Specialization) :
    IdMap UInt32 → List (List UInt32) → Except VkResult (List (List UInt32))
  | _, [] => .ok []
  | constants, i :: rest => do
    let (emitted, constants) ← freezeInstruction ids types values constants i
    let later ← freezeLoop ids types values constants rest
    pure (emitted ++ later)

/-- `freeze`. -/
def freeze (words : List UInt32) (values : Specialization) : Except VkResult (List UInt32) := do
  let code ← instructions words
  let frozen ← freezeLoop (specIds code) (scalarTypes code) values .empty code
  pure (words.take 5 ++ frozen.flatten)

end Sgfx.Vulkan.Spirv
