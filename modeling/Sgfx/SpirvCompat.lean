import Sgfx.Types
import Sgfx.Vulkan.SpirvGrammar

/-!
# SPIR-V for Naga

Modules are adapted to what Naga 24 reads: draw-parameter capabilities and line records go, and
signed `DrawIndex` inputs are declared unsigned and converted where they are loaded.

## Main Definitions

* `drawInputs` — the inputs that are declared anew
* `hoist` — the types that move to the front
* `naga24Turn`, `naga24Spirv`
-/

namespace Sgfx.SpirvCompat

open Vulkan.Spirv

/-! ## Inputs -/

/-- The ids that are decorated as `DrawIndex`. -/
def draws (code : List (List UInt32)) : List UInt32 :=
  (code.filter fun i => opcode i == 71 && i.length == 4 && i.getD 2 0 == 11 &&
    i.getD 3 0 == 4426).map fun i => i.getD 1 0

/-- The signed integer types of 32 bits. -/
def signed (code : List (List UInt32)) : List UInt32 :=
  (code.filter fun i => opcode i == 21 && i.length == 4 && i.getD 2 0 == 32 &&
    i.getD 3 0 == 1).map fun i => i.getD 1 0

/-- The pointers to signed inputs. -/
def signedPointers (code : List (List UInt32)) : List UInt32 :=
  (code.filter fun i => opcode i == 32 && i.length == 4 && i.getD 2 0 == 1 &&
    (signed code).contains (i.getD 3 0)).map fun i => i.getD 1 0

/-- The signed `DrawIndex` inputs (`variables`). -/
def drawInputs (code : List (List UInt32)) : List UInt32 :=
  (code.filter fun i => opcode i == 59 && decide (4 ≤ i.length) && i.getD 3 0 == 1 &&
    (draws code).contains (i.getD 2 0) && (signedPointers code).contains (i.getD 1 0)).map
    fun i => i.getD 2 0

/-- An id from the bound on (`fresh`). -/
def fresh (bound : UInt32) : Except Error (UInt32 × UInt32) := do
  let next ← okOr (checkedAdd32 bound 1) .overflow
  pure (bound, next)

/-- The unsigned integer type of 32 bits: that of the module, or a new one. -/
def hoistUint (code : List (List UInt32)) (bound : UInt32) :
    Except Error (List UInt32 × UInt32 × UInt32) :=
  match code.find? fun i => opcode i == 21 && i.length == 4 && i.getD 2 0 == 32 &&
      i.getD 3 0 == 0 with
  | some i => .ok (i, i.getD 1 0, bound)
  | none => do
    let (id, bound) ← fresh bound
    pure (emit 21 [id, 32, 0], id, bound)

/-- The pointer to inputs of a type: that of the module, or a new one. -/
def hoistPointer (code : List (List UInt32)) (uint bound : UInt32) :
    Except Error (List UInt32 × UInt32 × UInt32) :=
  match code.find? fun i => opcode i == 32 && i.length == 4 && i.getD 2 0 == 1 &&
      i.getD 3 0 == uint with
  | some i => .ok (i, i.getD 1 0, bound)
  | none => do
    let (id, bound) ← fresh bound
    pure (emit 32 [id, 1, uint], id, bound)

/-- The types that move to the front. -/
structure Hoisted where
  types : List (List UInt32)
  uint : UInt32
  pointer : UInt32
  bound : UInt32

/-- The types for the inputs, if there are any. -/
def hoist (code : List (List UInt32)) (bound : UInt32) : Except Error Hoisted :=
  if drawInputs code = [] then .ok ⟨[], 0, 0, bound⟩
  else do
    let (first, uint, bound) ← hoistUint code bound
    let (second, pointer, bound) ← hoistPointer code uint bound
    pure ⟨[first, second], uint, pointer, bound⟩

/-! ## Rewriting -/

/-- The bytes of a string operand. -/
def stringBytes (operands : List UInt32) : List UInt8 :=
  (operands.flatMap fun word => Bytes.toLeBytes 4 word.toNat).takeWhile fun byte => byte != 0

/-- The extension for draw parameters. -/
def drawParameters : List UInt8 :=
  "SPV_KHR_shader_draw_parameters".toList.map fun c => UInt8.ofNat c.toNat

/-- The capability and the extension for draw parameters, and line records. -/
def isDropped (i : List UInt32) : Bool :=
  (opcode i == 17 && i[1]? == some 4427) ||
    (opcode i == 10 && stringBytes (i.drop 1) == drawParameters) ||
    opcode i == 8 || opcode i == 317

/-- The opcodes of types. -/
def isType (i : List UInt32) : Bool := decide (19 ≤ opcode i) && decide (opcode i ≤ 39)

/-- The declaration of a type that is at the front. -/
def isHoisted (code : List (List UInt32)) (hoisted : Hoisted) (i : List UInt32) : Bool :=
  !(drawInputs code).isEmpty &&
    ((opcode i == 21 && i[1]? == some hoisted.uint) ||
      (opcode i == 32 && i[1]? == some hoisted.pointer))

/-- The types that are still to be written, and the bound. -/
structure State where
  types : List (List UInt32)
  bound : UInt32

/-- The types go ahead of the first declaration of a type. -/
def insertTypes (s : State) (i : List UInt32) : List (List UInt32) × State :=
  if isType i then (s.types, { s with types := [] }) else ([], s)

/-- What replaces an instruction. -/
def rewriteInput (code : List (List UInt32)) (hoisted : Hoisted) (bound : UInt32)
    (i : List UInt32) : Except Error (List (List UInt32) × UInt32) :=
  if isHoisted code hoisted i then .ok ([], bound)
  else if opcode i = 59 ∧ i.length < 4 then .error .invalidDescriptor
  else if opcode i = 59 ∧ i.getD 2 0 ∈ drawInputs code then .ok ([i.set 1 hoisted.pointer], bound)
  else if opcode i = 61 ∧ 4 ≤ i.length ∧ i.getD 3 0 ∈ drawInputs code then do
    let (id, bound) ← fresh bound
    pure ([(i.set 1 hoisted.uint).set 2 id, emit 124 [i.getD 1 0, i.getD 2 0, id]], bound)
  else .ok ([i], bound)

/-- The body of the loop. -/
def naga24Turn (code : List (List UInt32)) (hoisted : Hoisted) (s : State) (i : List UInt32) :
    Except Error (Patch × State) :=
  if isDropped i then .ok (⟨[], []⟩, s)
  else do
    let (inserted, s) := insertTypes s i
    let (body, bound) ← rewriteInput code hoisted s.bound i
    pure (⟨inserted, body⟩, { s with bound })

/-- `naga24_spirv`.  Its framing loop takes the same words as `splitInstructions`. -/
def naga24Spirv (words : List UInt32) : Except Error (List UInt32) := do
  failIf (words.length < 5 ∨ words.getD 0 0 ≠ 0x07230203 ∨ words.getD 3 0 = 0)
    Error.invalidDescriptor
  let code ← (splitInstructions words.length (words.drop 5)).mapError
    fun _ => Error.invalidDescriptor
  let hoisted ← hoist code (words.getD 3 0)
  let (pieces, s) ← transduce (naga24Turn code hoisted) ⟨hoisted.types, hoisted.bound⟩ code
  pure ((words.take 5).set 3 s.bound ++ (pieces.flatMap Patch.all).flatten)

end Sgfx.SpirvCompat
