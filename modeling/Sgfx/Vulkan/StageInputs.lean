import Mathlib.Data.List.Sort
import Std.Data.TreeMap
import Std.Data.TreeSet
import Sgfx.Vulkan.Specialization
import Sgfx.Vulkan.SpirvGrammar

/-!
# Packed stage inputs

Inputs of a fragment shader that share a location become one vector of four components, and what is
loaded from them is taken from its lanes.

## Main Definitions

* `Tables` — decorations, types and variables of a module
* `inputGroups` — the inputs that are packed, by location
* `packGroup` — the vector for the inputs of a location
* `lower`
-/

namespace Sgfx.Vulkan.StageInputs

open Spirv

/-! ## Tables -/

/-- `Decorations` of an id; `other` are the words of those without a meaning here. -/
structure Decorations where
  location : Option UInt32 := none
  component : Option UInt32 := none
  other : Std.TreeSet (List UInt32) := ∅

/-- The declarations of a module. -/
structure Tables where
  decorations : Std.TreeMap UInt32 Decorations := ∅
  /-- The storage class and the type of a pointer. -/
  pointers : IdMap (UInt32 × UInt32) := .empty
  /-- The type and the storage class of a variable, and the length of its declaration. -/
  variableTypes : IdMap (UInt32 × UInt32 × Nat) := .empty
  scalars : IdMap Unit := .empty
  /-- The type and the number of the components. -/
  vectors : IdMap (UInt32 × UInt32) := .empty

/-- The decorations of an id (`entry(id).or_default()`). -/
def Tables.decorationsOf (tables : Tables) (id : UInt32) : Decorations :=
  (tables.decorations[id]?).getD {}

/-- An `OpDecorate`. -/
def decorate (tables : Tables) (i : List UInt32) : Except VkResult Tables := do
  let target := tables.decorationsOf (i.getD 1 0)
  if i.getD 2 0 = 30 ∨ i.getD 2 0 = 31 then
    failIf (i.length ≠ 4) VkResult.errorFeatureNotPresent
    let slot := if i.getD 2 0 = 30 then target.location else target.component
    failIf (slot.any (· ≠ i.getD 3 0)) VkResult.errorFeatureNotPresent
    failIf (i.getD 2 0 = 31 ∧ 3 < i.getD 3 0) VkResult.errorFeatureNotPresent
    let target := if i.getD 2 0 = 30 then { target with location := some (i.getD 3 0) }
      else { target with component := some (i.getD 3 0) }
    pure { tables with decorations := tables.decorations.insert (i.getD 1 0) target }
  else
    let target := { target with other := target.other.insert (i.drop 2) }
    pure { tables with decorations := tables.decorations.insert (i.getD 1 0) target }

/-- The first loop of `lower`. -/
def recordTables (tables : Tables) (i : List UInt32) : Except VkResult Tables :=
  if opcode i = 21 ∧ i.length = 4 ∧ i.getD 2 0 = 32 ∧ i.getD 3 0 ≤ 1 then
    .ok { tables with scalars := tables.scalars.insert (i.getD 1 0) () }
  else if opcode i = 22 ∧ i.length = 3 ∧ i.getD 2 0 = 32 then
    .ok { tables with scalars := tables.scalars.insert (i.getD 1 0) () }
  else if opcode i = 23 ∧ i.length = 4 then
    .ok { tables with vectors := tables.vectors.insert (i.getD 1 0) (i.getD 2 0, i.getD 3 0) }
  else if opcode i = 32 ∧ i.length = 4 then
    .ok { tables with pointers := tables.pointers.insert (i.getD 1 0) (i.getD 2 0, i.getD 3 0) }
  else if opcode i = 59 ∧ 4 ≤ i.length then
    .ok { tables with
      variableTypes := tables.variableTypes.insert (i.getD 2 0) (i.getD 1 0, i.getD 3 0, i.length) }
  else if opcode i = 71 ∧ 3 ≤ i.length then decorate tables i
  else if opcode i = 72 ∧ 4 ≤ i.length ∧ i.getD 3 0 = 31 then do
    failIf (i.length ≠ 5 ∨ i.getD 4 0 ≠ 0) VkResult.errorFeatureNotPresent
    pure tables
  else .ok tables

/-! ## Groups -/

/-- The variable is an input. -/
def Tables.isInput (tables : Tables) (id : UInt32) : Bool :=
  (tables.variableTypes id).any fun entry => entry.2.1 == 1

/-- A component other than the first. -/
def Decorations.isShifted (decor : Decorations) : Bool := decor.component.any (· ≠ 0)

/-- The loop over the decorations: the inputs of each location. -/
def groupTurn (tables : Tables) (groups : Std.TreeMap UInt32 (List UInt32))
    (entry : UInt32 × Decorations) : Except VkResult (Std.TreeMap UInt32 (List UInt32)) := do
  failIf (entry.2.isShifted = true ∧
    (tables.isInput entry.1 = false ∨ entry.2.location = none)) VkResult.errorFeatureNotPresent
  match tables.isInput entry.1, entry.2.location with
  | true, some location =>
    pure (groups.insert location ((groups[location]?).getD [] ++ [entry.1]))
  | _, _ => pure groups

/-- The locations of several inputs, or of one with a component (`groups.retain`). -/
def isRetained (tables : Tables) (group : UInt32 × List UInt32) : Bool :=
  decide (1 < group.2.length) || (tables.decorationsOf (group.2.headD 0)).isShifted

/-- The inputs that are packed, in the order of their locations. -/
def inputGroups (tables : Tables) : Except VkResult (List (UInt32 × List UInt32)) := do
  let groups ← tables.decorations.toList.foldlM (groupTurn tables) ∅
  pure (groups.toList.filter (isRetained tables))

/-! ## Vectors -/

/-- `Input`. -/
structure Input where
  id : UInt32
  ty : UInt32
  scalar : UInt32
  width : UInt32
  component : UInt32
deriving DecidableEq, Repr

/-- The vector for the inputs of a location. -/
structure Combined where
  location : UInt32
  scalar : UInt32
  vec4 : UInt32
  pointer : UInt32
  variableId : UInt32
  qualifiers : List (List UInt32)
deriving DecidableEq, Repr

/-- The declarations of the vector. -/
def Combined.declarations (c : Combined) : List (List UInt32) :=
  [emit 23 [c.vec4, c.scalar, 4], emit 32 [c.pointer, 1, c.vec4], emit 59 [c.pointer, c.variableId, 1]]

/-- Its decorations. -/
def Combined.annotations (c : Combined) : List (List UInt32) :=
  emit 71 [c.variableId, 30, c.location] ::
    c.qualifiers.map fun qualifier => emit 71 (c.variableId :: qualifier)

/-- The inputs of a location, and the vector that they are lanes of. -/
structure Pack where
  combined : Combined
  members : List Input

/-- An id below the bound for ids (`fresh`). -/
def fresh (next : UInt32) : Except VkResult (UInt32 × UInt32) := do
  let bound ← okOr ((checkedAdd32 next 1).filter (· ≤ 0x3fffff)) VkResult.errorFeatureNotPresent
  pure (next, bound)

/-- The decorations that the vector takes over. -/
def isQualifier (words : List UInt32) : Bool :=
  words.length == 1 && [0, 13, 14, 16, 17, 18].contains (words.headD 0)

/-- An input of a group, whose lanes are free. -/
def packMember (tables : Tables) (qualifiers : List (List UInt32)) (s : List Input × UInt32)
    (id : UInt32) : Except VkResult (List Input × UInt32) := do
  let decor := tables.decorationsOf id
  failIf (decor.other.toList ≠ qualifiers) VkResult.errorFeatureNotPresent
  -- `groups` has variables only.
  let (pointer, storage, length) := (tables.variableTypes id).getD (0, 0, 0)
  let (pointerStorage, ty) ← okOr (tables.pointers pointer) VkResult.errorFeatureNotPresent
  failIf (storage ≠ 1 ∨ pointerStorage ≠ 1 ∨ length ≠ 4) VkResult.errorFeatureNotPresent
  let (scalar, width) := (tables.vectors ty).getD (ty, 1)
  let component := decor.component.getD 0
  failIf ((tables.scalars scalar).isNone ∨ ¬ (1 ≤ width ∧ width ≤ 4) ∨ 4 < component + width)
    VkResult.errorFeatureNotPresent
  failIf (s.1.head?.any (·.scalar ≠ scalar)) VkResult.errorFeatureNotPresent
  let lanes := ((1 <<< width) - 1) <<< component
  failIf (s.2 &&& lanes ≠ 0) VkResult.errorFeatureNotPresent
  pure (s.1 ++ [{ id, ty, scalar, width, component }], s.2 ||| lanes)

/-- The loop over the groups. -/
def packGroup (tables : Tables) (next : UInt32) (group : UInt32 × List UInt32) :
    Except VkResult (Pack × UInt32) := do
  let ids := group.2.insertionSort (· ≤ ·)
  let qualifiers := (tables.decorationsOf (ids.headD 0)).other.toList
  failIf (qualifiers.any fun words => !isQualifier words) VkResult.errorFeatureNotPresent
  let (members, _) ← ids.foldlM (packMember tables qualifiers) ([], 0)
  let scalar := (members.map Input.scalar).headD 0
  let (vec4, next) ← fresh next
  let (pointer, next) ← fresh next
  let (variableId, next) ← fresh next
  pure (⟨⟨group.1, scalar, vec4, pointer, variableId, qualifiers⟩, members⟩, next)

/-- The packed inputs by id (`inputs` and `packed`). -/
def packedInputs (packs : List Pack) : IdMap (Input × Combined) :=
  (packs.flatMap fun pack => pack.members.map fun input => (input, pack.combined)).foldl
    (fun inputs entry => inputs.insert entry.1.id entry) .empty

/-! ## Uses -/

/-- `interface_start`: the interface follows the name. -/
def interfaceStart (i : List UInt32) : Except VkResult Nat := do
  failIf (i.length < 4) VkResult.errorFeatureNotPresent
  let offset ← okOr ((i.drop 3).findIdx? endsString) VkResult.errorFeatureNotPresent
  pure (offset + 4)

/-- The words of an instruction in a function that may be ids of inputs. -/
def checkedOperands (i : List UInt32) : List UInt32 :=
  if opcode i ∈ [8, 317, 54, 56, 248, 249, 250, 251, 252, 253] then []
  else if opcode i = 59 ∧ 4 ≤ i.length then i.drop 4
  else if opcode i ∈ [62, 63, 64] ∧ 3 ≤ i.length then (i.drop 1).take 2
  else if opcode i ∈ [79, 82] ∧ 5 ≤ i.length then (i.drop 3).take 2
  else if opcode i = 81 ∧ 4 ≤ i.length then (i.drop 3).take 1
  else if opcode i = 12 ∧ 5 ≤ i.length then i.drop 5
  else i.drop 1

/-- A word is the id of a packed input. -/
def isPacked (inputs : IdMap (Input × Combined)) (id : UInt32) : Bool := (inputs id).isSome

/-- The inputs in the interface of an entry point, which must be one of a fragment shader. -/
def interfaceInputs (inputs : IdMap (Input × Combined)) (i : List UInt32) :
    Except VkResult (List UInt32) :=
  if opcode i = 15 then do
    let start ← interfaceStart i
    let found := (i.drop start).filter (isPacked inputs)
    failIf (found ≠ [] ∧ i.getD 1 0 ≠ 4) VkResult.errorFeatureNotPresent
    pure found
  else .ok []

/-- An instruction in a function only loads inputs. -/
def checkOperands (inputs : IdMap (Input × Combined)) (i : List UInt32) : Except VkResult Unit :=
  match inputs (i.getD 3 0), decide (opcode i = 61 ∧ 4 ≤ i.length) with
  | some (input, _), true => failIf (i.getD 1 0 ≠ input.ty) VkResult.errorFeatureNotPresent
  | _, _ => failIf ((checkedOperands i).any (isPacked inputs)) VkResult.errorFeatureNotPresent

/-- The loop of checks: whether a function has begun, and the inputs in interfaces. -/
def checkUse (inputs : IdMap (Input × Combined)) (s : Bool × List UInt32) (i : List UInt32) :
    Except VkResult (Bool × List UInt32) := do
  let found ← interfaceInputs inputs i
  failIf (opcode i = 74 ∧ (i.length < 3 ∨ (i.drop 2).any (isPacked inputs)))
    VkResult.errorFeatureNotPresent
  failIf (opcode i = 332 ∧ (i[1]?).any (isPacked inputs)) VkResult.errorFeatureNotPresent
  let inFunction := s.1 || opcode i == 54
  if inFunction then checkOperands inputs i
  pure (inFunction, s.2 ++ found)

/-! ## Rewriting -/

/-- The next id, and whether the sections have been written. -/
structure State where
  next : UInt32
  annotated : Bool
  declared : Bool

/-- The ids of an interface, each once. -/
def distinctIds (ids : List UInt32) : List UInt32 :=
  ids.foldl (fun kept id => if id ∈ kept then kept else kept ++ [id]) []

/-- The id of the vector of a packed input. -/
def renamed (inputs : IdMap (Input × Combined)) (id : UInt32) : UInt32 :=
  match inputs id with
  | some (_, combined) => combined.variableId
  | none => id

/-- The lanes of an input. -/
def extractLanes (input : Input) (result loaded : UInt32) : List UInt32 :=
  if input.width = 1 then emit 81 [input.ty, result, loaded, input.component]
  else emit 79 ([input.ty, result, loaded, loaded] ++
    (List.range input.width.toNat).map fun lane => input.component + UInt32.ofNat lane)

/-- What replaces an instruction. -/
def rewriteInstruction (inputs : IdMap (Input × Combined)) (next : UInt32) (i : List UInt32) :
    Except VkResult (List (List UInt32) × UInt32) :=
  if (opcode i = 5 ∨ opcode i = 71) ∧ 2 ≤ i.length ∧ isPacked inputs (i.getD 1 0) = true then
    .ok ([], next)
  else if opcode i = 59 ∧ 3 ≤ i.length ∧ isPacked inputs (i.getD 2 0) = true then .ok ([], next)
  else if opcode i = 15 then do
    let start ← interfaceStart i
    pure ([emit 15 ((i.take start).drop 1 ++ distinctIds ((i.drop start).map (renamed inputs)))],
      next)
  else match inputs (i.getD 3 0), decide (opcode i = 61 ∧ 4 ≤ i.length) with
    | some (input, combined), true => do
      let (loaded, next) ← fresh next
      pure ([emit 61 ([combined.vec4, loaded, combined.variableId] ++ i.drop 4),
        extractLanes input (i.getD 2 0) loaded], next)
    | _, _ => .ok ([i], next)

/-- The sections that go ahead of an instruction. -/
def sections (packs : List Pack) (s : State) (i : List UInt32) : List (List UInt32) × State :=
  let annotate := !s.annotated && (decide (19 ≤ opcode i) && decide (opcode i ≤ 39))
  let declare := !s.declared && opcode i == 54
  ((if annotate then packs.flatMap fun pack => pack.combined.annotations else []) ++
    (if declare then packs.flatMap fun pack => pack.combined.declarations else []),
    { s with annotated := s.annotated || annotate, declared := s.declared || declare })

/-- The body of the last loop. -/
def lowerTurn (packs : List Pack) (s : State) (i : List UInt32) :
    Except VkResult (Patch × State) := do
  let (inserted, s) := sections packs s i
  let (body, next) ← rewriteInstruction (packedInputs packs) s.next i
  pure (⟨inserted, body⟩, { s with next })

/-- The loops after the groups are known. -/
def lowerPacked (tables : Tables) (groups : List (UInt32 × List UInt32)) (words : List UInt32)
    (code : List (List UInt32)) : Except VkResult (List UInt32) := do
  let (packs, next) ← transduce (packGroup tables) (words.getD 3 0) groups
  let (_, seen) ← code.foldlM (checkUse (packedInputs packs)) (false, [])
  failIf ((packs.flatMap Pack.members).any fun input => !seen.contains input.id)
    VkResult.errorFeatureNotPresent
  let (pieces, s) ← transduce (lowerTurn packs) ⟨next, false, false⟩ code
  failIf (s.annotated = false ∨ s.declared = false) VkResult.errorFeatureNotPresent
  pure ((words.take 5).set 3 s.next ++ (pieces.flatMap Patch.all).flatten)

/-- `lower`. -/
def lower (words : List UInt32) : Except VkResult (List UInt32) := do
  failIf (words.length < 5 ∨ words.getD 0 0 ≠ 0x07230203) VkResult.errorFeatureNotPresent
  let code ← instructions words
  let tables ← code.foldlM recordTables {}
  let groups ← inputGroups tables
  if groups = [] then pure words else lowerPacked tables groups words code

end Sgfx.Vulkan.StageInputs
