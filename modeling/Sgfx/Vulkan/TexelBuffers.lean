import Sgfx.Abi.Scalars
import Sgfx.Vulkan.SpirvTables

/-!
# Texel buffers

Images of buffers with one component of 32 bits become storage buffers of words, and fetches from
them become loads.  Where the buffer holds signed bytes, the loads take a byte of the word.

## Main Definitions

* `tablesOf` — the types, variables and aliases of images of buffers
* `lower`
* `narrowSignedBytes`
-/

namespace Sgfx.Vulkan.TexelBuffers

open Spirv

/-- `fresh`: the next id, unless there is none after it. -/
def fresh (next : UInt32) : Except VkResult (UInt32 × UInt32) := do
  let bound ← okOr (checkedAdd32 next 1) VkResult.errorFeatureNotPresent
  pure (next, bound)

/-! ## Tables -/

/-- The component type of an image of a buffer. -/
def imageOf (i : List UInt32) : Option (UInt32 × UInt32) :=
  if opcode i = 25 ∧ i.length = 9 ∧ i.getD 3 0 = 5 then some (i.getD 1 0, i.getD 2 0) else none

/-- The component type of a sampled image. -/
def sampledOf (images : IdMap UInt32) (i : List UInt32) : Option (UInt32 × UInt32) :=
  if opcode i = 27 ∧ i.length = 3 then (images (i.getD 2 0)).map (i.getD 1 0, ·) else none

/-- The component type behind a pointer to an image. -/
def pointerOf (wrappers : IdMap UInt32) (i : List UInt32) : Option (UInt32 × UInt32) :=
  if opcode i = 32 ∧ i.length = 4 ∧ i.getD 2 0 = 0 then
    (wrappers (i.getD 3 0)).map (i.getD 1 0, ·) else none

/-- The component type of a variable. -/
def variableOf (pointers : IdMap UInt32) (i : List UInt32) : Option (UInt32 × UInt32) :=
  if opcode i = 59 ∧ i.length = 4 then (pointers (i.getD 1 0)).map (i.getD 2 0, ·) else none

/-- The variable that was loaded, by the id of the image. -/
def aliasOf (buffers aliases : IdMap UInt32) (i : List UInt32) : Option (UInt32 × UInt32) :=
  if opcode i = 61 then
    if 4 ≤ i.length ∧ (buffers (i.getD 3 0)).isSome then some (i.getD 2 0, i.getD 3 0) else none
  else if (opcode i = 100 ∨ opcode i = 83) ∧ i.length = 4 then
    (aliases (i.getD 3 0)).map (i.getD 2 0, ·)
  else none

/-- One more alias. -/
def aliasTurn (buffers aliases : IdMap UInt32) (i : List UInt32) : IdMap UInt32 :=
  match aliasOf buffers aliases i with
  | some (id, buffer) => aliases.insert id buffer
  | none => aliases

/-- The tables ahead of the loops that write. -/
structure Tables where
  images : IdMap UInt32
  wrappers : IdMap UInt32
  pointers : IdMap UInt32
  buffers : IdMap UInt32
  aliases : IdMap UInt32

/-- `images`, `wrappers`, `pointers`, `variables` and `aliases`. -/
def tablesOf (code : List (List UInt32)) : Tables :=
  let images := gather imageOf code
  let wrappers := recordAll (sampledOf images) images code
  let pointers := gather (pointerOf wrappers) code
  let buffers := gather (variableOf pointers) code
  { images, wrappers, pointers, buffers,
    aliases := code.foldl (aliasTurn buffers) .empty }

/-- `removed`. -/
def Tables.removed (tables : Tables) (id : UInt32) : Bool :=
  (tables.wrappers id).isSome || (tables.pointers id).isSome || (tables.aliases id).isSome

/-! ## Storage -/

/-- The types and constants for the buffers with a component type. -/
structure Scalar where
  definition : List UInt32
  array : UInt32
  block : UInt32
  pointer : UInt32
  element : UInt32
  zero : UInt32
  one : UInt32

/-- What a missing last component reads as. -/
def oneWord (definition : List UInt32) : UInt32 :=
  if opcode definition = 22 then 0x3f800000 else 1

/-- The decorations of the types: a buffer block of words. -/
def Scalar.annotations (s : Scalar) : List (List UInt32) :=
  [emit 71 [s.array, 6, 4], emit 71 [s.block, 3], emit 72 [s.block, 0, 35, 0],
    emit 72 [s.block, 0, 24]]

/-- The types and constants. -/
def Scalar.declarations (s : Scalar) (scalar : UInt32) : List (List UInt32) :=
  [s.definition, emit 29 [s.array, scalar], emit 30 [s.block, s.array],
    emit 32 [s.pointer, 2, s.block], emit 32 [s.element, 2, scalar], emit 43 [scalar, s.zero, 0],
    emit 43 [scalar, s.one, oneWord s.definition]]

/-- The definition of a number type. -/
def isNumber (scalar : UInt32) (i : List UInt32) : Bool :=
  decide (2 ≤ i.length) && i.getD 1 0 == scalar && (opcode i == 21 || opcode i == 22)

/-- The next id, and the component types that are done. -/
structure Scalars where
  next : UInt32
  scalars : List (UInt32 × Scalar) := []

/-- The ids for a component type. -/
def newScalar (definition : List UInt32) (next : UInt32) : Except VkResult (Scalar × UInt32) := do
  let (array, next) ← fresh next
  let (block, next) ← fresh next
  let (pointer, next) ← fresh next
  let (element, next) ← fresh next
  let (zero, next) ← fresh next
  let (one, next) ← fresh next
  pure (⟨definition, array, block, pointer, element, zero, one⟩, next)

/-- The component type of a variable. -/
def scalarTurn (code : List (List UInt32)) (s : Scalars) (entry : UInt32 × UInt32) :
    Except VkResult Scalars :=
  if (s.scalars.lookup entry.2).isSome then .ok s
  else do
    let definition ← okOr (code.find? (isNumber entry.2)) VkResult.errorFeatureNotPresent
    failIf (definition.getD 2 0 ≠ 32) VkResult.errorFeatureNotPresent
    let (scalar, next) ← newScalar definition s.next
    pure { next, scalars := s.scalars ++ [(entry.2, scalar)] }

/-! ## Rewriting -/

/-- What the last loop reads. -/
structure Plan where
  tables : Tables
  scalars : List (UInt32 × Scalar)
  uint : UInt32
  indexZero : UInt32

/-- `annotations`. -/
def Plan.annotations (plan : Plan) : List (List UInt32) :=
  plan.scalars.flatMap fun entry => entry.2.annotations

/-- `declarations`. -/
def Plan.declarations (plan : Plan) : List (List UInt32) :=
  (plan.scalars.flatMap fun entry => entry.2.declarations entry.1) ++
    [emit 21 [plan.uint, 32, 0], emit 43 [plan.uint, plan.indexZero, 0]]

/-- What the last loop leaves out. -/
def Plan.isDropped (plan : Plan) (i : List UInt32) : Bool :=
  (opcode i == 17 && i.length == 2 && (i.getD 1 0 == 46 || i.getD 1 0 == 47)) ||
  ((opcode i == 5 || opcode i == 71) && decide (2 ≤ i.length) &&
    plan.tables.removed (i.getD 1 0)) ||
  (decide (19 ≤ opcode i ∧ opcode i ≤ 39 ∧ 2 ≤ i.length) && plan.tables.removed (i.getD 1 0)) ||
  ((opcode i == 21 || opcode i == 22) && decide (2 ≤ i.length) &&
    (plan.scalars.lookup (i.getD 1 0)).isSome) ||
  ((opcode i == 61 || opcode i == 100 || opcode i == 83) && decide (3 ≤ i.length) &&
    (plan.tables.aliases (i.getD 2 0)).isSome)

/-- The next id, and the sections that have been written. -/
structure State where
  next : UInt32
  annotated : Bool := false
  declared : Bool := false

/-- The load of a word. -/
def fetchWord (plan : Plan) (scalar : UInt32) (s : Scalar) (buffer pointer value : UInt32)
    (i : List UInt32) : List (List UInt32) :=
  [emit 65 [s.element, pointer, buffer, plan.indexZero, i.getD 4 0], emit 61 [scalar, value, pointer],
    emit 80 [i.getD 1 0, i.getD 2 0, value, s.zero, s.zero, s.one]]

/-- A fetch, of a texel without operands, or with an extension that does nothing. -/
def rewriteFetch (plan : Plan) (next : UInt32) (i : List UInt32) :
    Except VkResult (List (List UInt32) × UInt32) := do
  failIf (i.length ≠ 5 ∧
      ¬ (i.length = 6 ∧ (i.getD 5 0 = 0 ∨ i.getD 5 0 = 0x1000 ∨ i.getD 5 0 = 0x2000)))
    VkResult.errorFeatureNotPresent
  -- The tables are there, so that indexing does not panic.
  let buffer ← okOr (plan.tables.aliases (i.getD 3 0)) VkResult.errorFeatureNotPresent
  let scalar ← okOr (plan.tables.buffers buffer) VkResult.errorFeatureNotPresent
  let s ← okOr (plan.scalars.lookup scalar) VkResult.errorFeatureNotPresent
  let (pointer, next) ← fresh next
  let (value, next) ← fresh next
  pure (fetchWord plan scalar s buffer pointer value i, next)

/-- What replaces an instruction. -/
def rewriteInstruction (plan : Plan) (next : UInt32) (i : List UInt32) :
    Except VkResult (List (List UInt32) × UInt32) :=
  if plan.isDropped i = true then .ok ([], next)
  else if opcode i = 59 ∧ i.length = 4 ∧ (plan.tables.buffers (i.getD 2 0)).isSome then do
    let scalar ← okOr (plan.tables.buffers (i.getD 2 0)) VkResult.errorFeatureNotPresent
    let s ← okOr (plan.scalars.lookup scalar) VkResult.errorFeatureNotPresent
    pure ([emit 59 [s.pointer, i.getD 2 0, 2]], next)
  else if opcode i = 95 ∧ 5 ≤ i.length ∧ (plan.tables.aliases (i.getD 3 0)).isSome then
    rewriteFetch plan next i
  else .ok ([i], next)

/-- The sections that go ahead of an instruction. -/
def sections (plan : Plan) (s : State) (i : List UInt32) : List (List UInt32) × State :=
  let type := decide (19 ≤ opcode i) && decide (opcode i ≤ 39)
  let annotate := !s.annotated && (type || opcode i == 71 || opcode i == 72)
  let declare := !s.declared && type
  ((if annotate then plan.annotations else []) ++ (if declare then plan.declarations else []),
    { s with annotated := s.annotated || annotate, declared := s.declared || declare })

/-- The body of the last loop. -/
def lowerTurn (plan : Plan) (s : State) (i : List UInt32) : Except VkResult (Patch × State) := do
  let (inserted, s) := sections plan s i
  let (body, next) ← rewriteInstruction plan s.next i
  pure (⟨inserted, body⟩, { s with next })

/-- What the last loop needs of the module; the hash map of variables has some order. -/
def planOf (order : List (UInt32 × UInt32) → List (UInt32 × UInt32)) (code : List (List UInt32))
    (next : UInt32) : Except VkResult (Plan × UInt32) := do
  let tables := tablesOf code
  let buffers := entries (variableOf tables.pointers) code
  failIf (buffers.toList = []) VkResult.errorFeatureNotPresent
  let s ← (order buffers.toList).foldlM (scalarTurn code) { next }
  let (uint, next) ← fresh s.next
  let (indexZero, next) ← fresh next
  pure (⟨tables, s.scalars, uint, indexZero⟩, next)

/-- `lower`. -/
def lower (order : List (UInt32 × UInt32) → List (UInt32 × UInt32)) (words : List UInt32) :
    Except VkResult (List UInt32) := do
  let code ← instructions words
  if code.any fun i => (imageOf i).isSome then do
    let (plan, next) ← planOf order code (words.getD 3 0)
    let (pieces, s) ← transduce (lowerTurn plan) { next } code
    pure ((words.take 5).set 3 s.next ++ (pieces.flatMap Patch.all).flatten)
  else pure words

/-! ## Signed bytes -/

/-- An operand of the decorations of an id. -/
def decorationOf (decoration : UInt32) (i : List UInt32) : Option (UInt32 × UInt32) :=
  if opcode i = 71 ∧ i.length = 4 ∧ i.getD 2 0 = decoration then some (i.getD 1 0, i.getD 3 0)
  else none

/-- `globals`: the variables with one of the bindings. -/
def isGlobal (code : List (List UInt32)) (bindings : List (UInt32 × UInt32)) (id : UInt32) : Bool :=
  match gather (decorationOf 34) code id, gather (decorationOf 33) code id with
  | some set, some binding => bindings.contains (set, binding)
  | _, _ => false

/-- `signed`: the types of signed integers with 32 bits. -/
def isSigned (code : List (List UInt32)) (id : UInt32) : Bool :=
  code.any fun i => opcode i == 21 && i.length == 4 && i.getD 2 0 == 32 && i.getD 3 0 == 1 &&
    i.getD 1 0 == id

/-- The types behind pointers. -/
def pointeeOf (i : List UInt32) : Option (UInt32 × UInt32) :=
  if opcode i = 32 ∧ i.length = 4 then some (i.getD 1 0, i.getD 3 0) else none

/-- What the loop for bytes reads. -/
structure BytePlan where
  isGlobal : UInt32 → Bool
  isSigned : UInt32 → Bool
  pointers : IdMap UInt32
  uint : UInt32
  two : UInt32
  three : UInt32
  twentyFour : UInt32

/-- `declarations`. -/
def BytePlan.declarations (plan : BytePlan) : List (List UInt32) :=
  [emit 21 [plan.uint, 32, 0], emit 43 [plan.uint, plan.two, 2], emit 43 [plan.uint, plan.three, 3],
    emit 43 [plan.uint, plan.twentyFour, 24]]

/-- The next id, whether the declarations have been written, and the index of each access. -/
structure ByteState where
  next : UInt32
  added : Bool := false
  accesses : IdMap UInt32 := .empty

/-- An access to the word with the byte. -/
def narrowAccess (plan : BytePlan) (s : ByteState) (i : List UInt32) :
    Except VkResult (List (List UInt32) × ByteState) := do
  failIf (i.length ≠ 6 ∨ (plan.pointers (i.getD 1 0)).any plan.isSigned = false)
    VkResult.errorFeatureNotPresent
  let (coord, next) ← fresh s.next
  let (word, next) ← fresh next
  pure ([emit 124 [plan.uint, coord, i.getD 5 0], emit 194 [plan.uint, word, coord, plan.two],
    i.set 5 word], { s with next, accesses := s.accesses.insert (i.getD 2 0) coord })

/-- The byte of a word, with its sign. -/
def byteOf (plan : BytePlan) (coord raw byte shift selected high : UInt32) (i : List UInt32) :
    List (List UInt32) :=
  [emit 61 [i.getD 1 0, raw, i.getD 3 0], emit 199 [plan.uint, byte, coord, plan.three],
    emit 196 [plan.uint, shift, byte, plan.three], emit 194 [i.getD 1 0, selected, raw, shift],
    emit 196 [i.getD 1 0, high, selected, plan.twentyFour],
    emit 195 [i.getD 1 0, i.getD 2 0, high, plan.twentyFour]]

/-- A load of a byte. -/
def narrowLoad (plan : BytePlan) (s : ByteState) (coord : UInt32) (i : List UInt32) :
    Except VkResult (List (List UInt32) × ByteState) := do
  failIf (plan.isSigned (i.getD 1 0) = false) VkResult.errorFeatureNotPresent
  let (raw, next) ← fresh s.next
  let (byte, next) ← fresh next
  let (shift, next) ← fresh next
  let (selected, next) ← fresh next
  let (high, next) ← fresh next
  pure (byteOf plan coord raw byte shift selected high i, { s with next })

/-- What replaces an instruction. -/
def narrowInstruction (plan : BytePlan) (s : ByteState) (i : List UInt32) :
    Except VkResult (List (List UInt32) × ByteState) :=
  if opcode i = 65 ∧ 4 ≤ i.length ∧ plan.isGlobal (i.getD 3 0) = true then narrowAccess plan s i
  else match s.accesses (i.getD 3 0), decide (opcode i = 61 ∧ i.length = 4) with
    | some coord, true => narrowLoad plan s coord i
    | _, _ => .ok ([i], s)

/-- The body of the loop for bytes. -/
def narrowTurn (plan : BytePlan) (s : ByteState) (i : List UInt32) :
    Except VkResult (Patch × ByteState) := do
  let add := opcode i == 54 && !s.added
  let (body, t) ← narrowInstruction plan { s with added := s.added || add } i
  pure (⟨if add then plan.declarations else [], body⟩, t)

/-- `narrow_signed_bytes`. -/
def narrowSignedBytes (words : List UInt32) (bindings : List (UInt32 × UInt32)) :
    Except VkResult (List UInt32) :=
  if bindings = [] then .ok words
  else do
    let code ← instructions words
    if code.any fun i => (decorationOf 34 i).isSome && isGlobal code bindings (i.getD 1 0) then do
      let (uint, next) ← fresh (words.getD 3 0)
      let (two, next) ← fresh next
      let (three, next) ← fresh next
      let (twentyFour, next) ← fresh next
      let plan : BytePlan := ⟨isGlobal code bindings, isSigned code, gather pointeeOf code, uint,
        two, three, twentyFour⟩
      let (pieces, s) ← transduce (narrowTurn plan) { next } code
      pure ((words.take 5).set 3 s.next ++ (pieces.flatMap Patch.all).flatten)
    else pure words

end Sgfx.Vulkan.TexelBuffers
