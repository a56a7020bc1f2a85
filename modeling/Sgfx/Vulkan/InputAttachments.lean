import Std.Data.TreeMap
import Sgfx.Vulkan.SpirvTables

/-!
# Input attachments

Single-sample subpass inputs become loads of the texel at the pixel of the fragment.  The formats of
the attachments say which of them are depth images; these have types of their own.

## Main Definitions

* `handles` — the images of the attachments, and the new types for depth
* `Coordinate` — the ids that the loads need
* `lower`
-/

namespace Sgfx.Vulkan.InputAttachments

open Spirv

/-! ## Tables -/

/-- The words that an instruction must have. -/
def minimum (op : UInt32) : Nat :=
  if op = 25 then 9
  else if op = 32 ∨ op = 59 ∨ op = 61 then 4
  else if op = 98 then 5
  else 1

/-- An image type of subpass data. -/
def isSubpassType (i : List UInt32) : Bool :=
  opcode i == 25 && decide (9 ≤ i.length) && i.getD 3 0 == 6

/-- `subpass_types`. -/
def subpassTypes (code : List (List UInt32)) : IdMap (List UInt32) :=
  gather (fun i => if isSubpassType i = true then some (i.getD 1 0, i) else none) code

/-- The storage class and the type of pointers. -/
def pointers (code : List (List UInt32)) : IdMap (UInt32 × UInt32) :=
  gather (fun i => if opcode i = 32 ∧ i.length = 4 then
    some (i.getD 1 0, i.getD 2 0, i.getD 3 0) else none) code

/-- The types of variables. -/
def variableTypes (code : List (List UInt32)) : IdMap UInt32 :=
  gather (fun i => if opcode i = 59 ∧ 4 ≤ i.length then some (i.getD 2 0, i.getD 1 0)
    else none) code

/-- `InputAttachmentIndex`. -/
def isIndex (i : List UInt32) : Bool := opcode i == 71 && i.length == 4 && i.getD 2 0 == 43

/-- `decorations`: the attachment of a variable. -/
def attachments (code : List (List UInt32)) : Std.TreeMap UInt32 UInt32 :=
  (code.filter isIndex).foldl (fun table i => table.insert (i.getD 1 0) (i.getD 3 0)) ∅

/-! ## Handles -/

/-- The images of variables with whether they are of depth, and the types and pointers for depth. -/
structure Handles where
  next : UInt32
  imageVariables : IdMap (UInt32 × Bool) := .empty
  depthTypes : IdMap UInt32 := .empty
  depthPointers : IdMap UInt32 := .empty

/-- `entry(key).or_insert_with(&mut id)`. -/
def orInsert (table : IdMap UInt32) (next key : UInt32) : IdMap UInt32 × UInt32 :=
  match table key with
  | some _ => (table, next)
  | none => (table.insert key next, next + 1)

/-- A variable with its attachment; `inputs` says which attachments there are, and whether they are
of depth. -/
def handleTurn (code : List (List UInt32)) (inputs : List (Option Bool)) (s : Handles)
    (entry : UInt32 × UInt32) : Except VkResult Handles := do
  let depth ← okOr (inputs[entry.2.toNat]?).join VkResult.errorFeatureNotPresent
  let pointer ← okOr (variableTypes code entry.1) VkResult.errorFeatureNotPresent
  let (storage, ty) ← okOr (pointers code pointer) VkResult.errorFeatureNotPresent
  let image ← okOr (subpassTypes code ty) VkResult.errorFeatureNotPresent
  failIf (storage ≠ 0 ∨ image.getD 5 0 ≠ 0 ∨ image.getD 6 0 ≠ 0) VkResult.errorFeatureNotPresent
  let imageVariables := s.imageVariables.insert entry.1 (ty, depth)
  if depth then
    let (depthTypes, next) := orInsert s.depthTypes s.next ty
    let (depthPointers, next) := orInsert s.depthPointers next pointer
    pure { next, imageVariables, depthTypes, depthPointers }
  else pure { s with imageVariables }

/-- The loop over the decorations, in the order that the hash map has. -/
def handles (order : List (UInt32 × UInt32) → List (UInt32 × UInt32))
    (code : List (List UInt32)) (inputs : List (Option Bool)) (next : UInt32) :
    Except VkResult Handles :=
  (order (attachments code).toList).foldlM (handleTurn code inputs) { next }

/-! ## Coordinates -/

/-- A decoration of the variable with the coordinate of the fragment. -/
def isFragCoord (i : List UInt32) : Bool :=
  opcode i == 71 && i.length == 4 && i.getD 2 0 == 11 && i.getD 3 0 == 15

/-- `frag_coord`. -/
def fragCoord (code : List (List UInt32)) : Option UInt32 :=
  (code.find? isFragCoord).map (·.getD 1 0)

/-- The type of floats. -/
def floatType (code : List (List UInt32)) : Option UInt32 :=
  (code.find? fun i => opcode i == 22 && i.length == 3 && i.getD 2 0 == 32).map (·.getD 1 0)

/-- The type of four floats. -/
def vec4Type (code : List (List UInt32)) (float : UInt32) : Option UInt32 :=
  (code.find? fun i => opcode i == 23 && i.length == 4 && i.getD 2 0 == float &&
    i.getD 3 0 == 4).map (·.getD 1 0)

/-- The ids that loads of texels need. -/
structure Coordinate where
  float : UInt32
  vec4 : UInt32
  coordVar : UInt32
  coordPointer : UInt32
  vec2 : UInt32
  int : UInt32
  ivec2 : UInt32
  lod0 : UInt32
  zero : UInt32
  one : UInt32

/-- The types and constants. -/
def Coordinate.constants (c : Coordinate) : List (List UInt32) :=
  [emit 23 [c.vec2, c.float, 2], emit 21 [c.int, 32, 1], emit 23 [c.ivec2, c.int, 2],
    emit 43 [c.int, c.lod0, 0], emit 43 [c.float, c.zero, 0],
    emit 43 [c.float, c.one, 0x3f800000]]

/-- The variable, if the module has none. -/
def Coordinate.input (c : Coordinate) : List (List UInt32) :=
  [emit 32 [c.coordPointer, 1, c.vec4], emit 59 [c.coordPointer, c.coordVar, 1]]

/-- `declarations`. -/
def Coordinate.declarations (c : Coordinate) (own : Option UInt32) : List (List UInt32) :=
  c.constants ++ if own.isSome then [] else c.input

/-- Eight new ids, or seven if the module has the variable. -/
def coordinate (own : Option UInt32) (float vec4 next : UInt32) : Coordinate × UInt32 :=
  let (coordVar, next) := match own with
    | some id => (id, next)
    | none => (next, next + 1)
  (⟨float, vec4, coordVar, next, next + 1, next + 2, next + 3, next + 4, next + 5, next + 6⟩,
    next + 7)

/-! ## Rewriting -/

/-- What the last loop reads. -/
structure Plan where
  own : Option UInt32
  subpassTypes : IdMap (List UInt32)
  handles : Handles
  coordinate : Coordinate

/-- The next id, whether the sections have been written, the constants that are zero, and whether
what was loaded is of depth. -/
structure State where
  next : UInt32
  annotated : Bool
  declared : Bool
  zeros : IdMap Unit := .empty
  loads : IdMap Bool := .empty

/-- The type of a sampled image with two dimensions. -/
def sampledType (i : List UInt32) : List UInt32 := (((i.drop 1).set 2 1).set 3 0).set 6 1

/-- The type of a depth image. -/
def depthType (ty : UInt32) (i : List UInt32) : List UInt32 :=
  ((sampledType i).set 0 ty).set 3 1

/-- A constant that is zero in all its parts. -/
def isZero (zeros : IdMap Unit) (i : List UInt32) : Bool :=
  (opcode i == 43 && decide (4 ≤ i.length) && (i.drop 3).all (· == 0)) ||
  (opcode i == 44 && decide (4 ≤ i.length) && (i.drop 3).all fun word => (zeros word).isSome) ||
  (opcode i == 46 && i.length == 3)

/-- A load of the texel at the pixel of the fragment. -/
def fetchTexel (c : Coordinate) (depth : Bool) (next : UInt32) (i : List UInt32) :
    List (List UInt32) × UInt32 :=
  let position := next
  let xy := next + 1
  let pixel := next + 2
  let coordinate := [emit 61 [c.vec4, position, c.coordVar],
    emit 79 [c.vec2, xy, position, position, 0, 1], emit 110 [c.ivec2, pixel, xy]]
  if depth then
    let fetched := next + 3
    let red := next + 4
    (coordinate ++ [emit 95 [c.vec4, fetched, i.getD 3 0, pixel, 2, c.lod0],
      emit 81 [c.float, red, fetched, 0],
      emit 80 [c.vec4, i.getD 2 0, red, c.zero, c.zero, c.one]], next + 5)
  else (coordinate ++ [emit 95 [c.vec4, i.getD 2 0, i.getD 3 0, pixel, 2, c.lod0]], next + 3)

/-- What replaces an instruction. -/
def rewriteInstruction (plan : Plan) (s : State) (i : List UInt32) :
    Except VkResult (List (List UInt32) × State) :=
  if opcode i = 17 ∧ i.length = 2 ∧ i.getD 1 0 = 40 then .ok ([], s)
  else if isIndex i = true then .ok ([], s)
  else if opcode i = 15 ∧ 4 ≤ i.length ∧ i.getD 1 0 = 4 ∧ plan.own = none then
    .ok ([emit 15 (i.drop 1 ++ [plan.coordinate.coordVar])], s)
  else if opcode i = 25 ∧ (plan.subpassTypes (i.getD 1 0)).isSome then
    .ok (emit 25 (sampledType i) :: (plan.handles.depthTypes (i.getD 1 0)).toList.map fun ty =>
      emit 25 (depthType ty i), s)
  else if opcode i = 32 ∧ (plan.handles.depthPointers (i.getD 1 0)).isSome then do
    -- Both are there, so that indexing does not panic.
    let pointer ← okOr (plan.handles.depthPointers (i.getD 1 0)) VkResult.errorFeatureNotPresent
    let ty ← okOr (plan.handles.depthTypes (i.getD 3 0)) VkResult.errorFeatureNotPresent
    pure ([i, emit 32 [pointer, i.getD 2 0, ty]], s)
  else if opcode i = 59 ∧ (plan.handles.imageVariables (i.getD 2 0)).any (·.2) then do
    let pointer ← okOr (plan.handles.depthPointers (i.getD 1 0)) VkResult.errorFeatureNotPresent
    pure ([emit 59 ((i.drop 1).set 0 pointer)], s)
  else if opcode i = 61 ∧ 4 ≤ i.length ∧ (plan.subpassTypes (i.getD 1 0)).isSome then do
    let (ty, depth) ← okOr (plan.handles.imageVariables (i.getD 3 0))
      VkResult.errorFeatureNotPresent
    let s := { s with loads := s.loads.insert (i.getD 2 0) depth }
    if depth then
      let ty ← okOr (plan.handles.depthTypes ty) VkResult.errorFeatureNotPresent
      pure ([emit 61 ((i.drop 1).set 0 ty)], s)
    else pure ([emit 61 (i.drop 1)], s)
  else match s.loads (i.getD 3 0), decide (opcode i = 98 ∧ 5 ≤ i.length) with
    | some depth, true => do
      failIf (i.length ≠ 5 ∨ s.zeros (i.getD 4 0) = none ∨ i.getD 1 0 ≠ plan.coordinate.vec4)
        VkResult.errorFeatureNotPresent
      let (body, next) := fetchTexel plan.coordinate depth s.next i
      pure (body, { s with next })
    | _, _ =>
      if isZero s.zeros i = true then
        .ok ([i], { s with zeros := s.zeros.insert (i.getD 2 0) () })
      else .ok ([i], s)

/-- The sections that go ahead of an instruction. -/
def sections (plan : Plan) (s : State) (i : List UInt32) : List (List UInt32) × State :=
  let annotate := !s.annotated && (decide (19 ≤ opcode i) && decide (opcode i ≤ 39))
  let declare := !s.declared && opcode i == 54
  ((if annotate then [emit 71 [plan.coordinate.coordVar, 11, 15]] else []) ++
    (if declare then plan.coordinate.declarations plan.own else []),
    { s with annotated := s.annotated || annotate, declared := s.declared || declare })

/-- The body of the last loop. -/
def lowerTurn (plan : Plan) (s : State) (i : List UInt32) : Except VkResult (Patch × State) := do
  let (inserted, s) := sections plan s i
  let (body, s) ← rewriteInstruction plan s i
  pure (⟨inserted, body⟩, s)

/-- A variable with the coordinate is an input of four floats. -/
def checkFragCoord (code : List (List UInt32)) (vec4 : UInt32) : Except VkResult Unit :=
  match fragCoord code with
  | some id => do
    let pointer ← okOr (variableTypes code id) VkResult.errorFeatureNotPresent
    failIf (pointers code pointer ≠ some (1, vec4)) VkResult.errorFeatureNotPresent
  | none => .ok ()

/-- What the last loop needs of the module. -/
def planOf (order : List (UInt32 × UInt32) → List (UInt32 × UInt32)) (code : List (List UInt32))
    (inputs : List (Option Bool)) (next : UInt32) : Except VkResult (Plan × UInt32) := do
  let handles ← handles order code inputs next
  let float ← okOr (floatType code) VkResult.errorFeatureNotPresent
  let vec4 ← okOr (vec4Type code float) VkResult.errorFeatureNotPresent
  checkFragCoord code vec4
  let (coordinate, next) := coordinate (fragCoord code) float vec4 handles.next
  pure (⟨fragCoord code, subpassTypes code, handles, coordinate⟩, next)

/-- `lower`. -/
def lower (order : List (UInt32 × UInt32) → List (UInt32 × UInt32)) (words : List UInt32)
    (inputs : List (Option Bool)) : Except VkResult (List UInt32) := do
  let code ← instructions words
  failIf (code.any fun i => decide (i.length < minimum (opcode i)))
    VkResult.errorFeatureNotPresent
  if code.any isSubpassType then do
    let (plan, next) ← planOf order code inputs (words.getD 3 0)
    let (pieces, s) ← transduce (lowerTurn plan) ⟨next, plan.own.isSome, false, .empty, .empty⟩ code
    pure ((words.take 5).set 3 s.next ++ (pieces.flatMap Patch.all).flatten)
  else pure words

end Sgfx.Vulkan.InputAttachments
