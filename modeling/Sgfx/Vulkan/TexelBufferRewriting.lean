import Sgfx.Vulkan.SpirvLayout
import Sgfx.Vulkan.TexelBuffers

/-!
# Lowered texel buffers

What `lower` promises for a module with images of buffers: nothing refers to what is removed, and a
fetch is the load of a word.  With `narrowSignedBytes` it is the load of a byte for some variables.

## Main Definitions

* `Removed` — the ids of types, pointers and loaded images that go
* `WellFormed` — the rules of SPIR-V that are used
* `Fetches` — the value of what replaces a fetch
* `Lowered`, `Narrowed` — the modules that are returned
* `Lowerable` — the modules for which they are right
-/

namespace Sgfx.Vulkan.TexelBuffers

open Spirv

/-! ## Images of buffers -/

section Images

variable (code : List (List UInt32))

/-- An image of a buffer, with its component type. -/
def BufferImage (type scalar : UInt32) : Prop :=
  ∃ i ∈ code, opcode i = 25 ∧ i.getD 3 0 = 5 ∧ i.getD 1 0 = type ∧ i.getD 2 0 = scalar

/-- An image of a buffer, or a sampled one. -/
def Wrapper (type scalar : UInt32) : Prop :=
  BufferImage code type scalar ∨
    ∃ i ∈ code, opcode i = 27 ∧ i.getD 1 0 = type ∧ BufferImage code (i.getD 2 0) scalar

/-- A pointer to one, for a variable that is uniform and constant. -/
def BufferPointer (type scalar : UInt32) : Prop :=
  ∃ i ∈ code, opcode i = 32 ∧ i.getD 2 0 = 0 ∧ i.getD 1 0 = type ∧ Wrapper code (i.getD 3 0) scalar

/-- A variable, which has no initial value. -/
def BufferVariable (id scalar : UInt32) : Prop :=
  ∃ i ∈ code, opcode i = 59 ∧ i.length = 4 ∧ i.getD 2 0 = id ∧ BufferPointer code (i.getD 1 0) scalar

/-- What was loaded from a variable: chains of `OpLoad`, `OpImage` and `OpCopyObject`. -/
inductive Alias : UInt32 → UInt32 → Prop
  | load (i : List UInt32) (scalar : UInt32) (member : i ∈ code) (op : opcode i = 61)
      (buffer : BufferVariable code (i.getD 3 0) scalar) : Alias (i.getD 2 0) (i.getD 3 0)
  | copy (i : List UInt32) (buffer : UInt32) (member : i ∈ code)
      (op : opcode i = 100 ∨ opcode i = 83) (of : Alias (i.getD 3 0) buffer) :
      Alias (i.getD 2 0) buffer

/-- The ids that go. -/
def Removed (id : UInt32) : Prop :=
  (∃ scalar, Wrapper code id scalar) ∨ (∃ scalar, BufferPointer code id scalar) ∨
    ∃ buffer, Alias code id buffer

/-- A fetch from the image in a variable. -/
structure BufferFetch (i : List UInt32) (buffer : UInt32) : Prop where
  op : opcode i = 95
  image : Alias code (i.getD 3 0) buffer

/-- The module has images of buffers. -/
def HasBuffers : Prop := (code.any fun i => (imageOf i).isSome) = true

instance : Decidable (HasBuffers code) := inferInstanceAs (Decidable (_ = true))

/-- The type of numbers and vectors. -/
def NumberType (type : UInt32) : Prop := ∃ t ∈ code, opcode t ∈ [21, 22, 23] ∧ t.getD 1 0 = type

/-- The variable is decorated with one of the descriptor sets and bindings. -/
def Selected (bindings : List (UInt32 × UInt32)) (id : UInt32) : Prop :=
  ∃ set binding, (set, binding) ∈ bindings ∧ (∃ d ∈ code, decorationOf 34 d = some (id, set)) ∧
    ∃ d ∈ code, decorationOf 33 d = some (id, binding)

end Images

/-- The words that an instruction must have; images have no access qualifier. -/
def HasLength (i : List UInt32) : Prop :=
  (opcode i ∈ [21, 32, 83, 100] → i.length = 4) ∧ (opcode i ∈ [17] → i.length = 2) ∧
    (opcode i = 22 → 3 ≤ i.length) ∧ (opcode i = 25 → i.length = 9) ∧
    (opcode i = 27 → i.length = 3) ∧ (opcode i = 59 ∨ opcode i = 61 → 4 ≤ i.length) ∧
    (opcode i = 65 → 4 ≤ i.length) ∧ (opcode i = 95 → 5 ≤ i.length) ∧
    (opcode i = 5 ∨ opcode i = 71 → 2 ≤ i.length) ∧
    (19 ≤ opcode i ∧ opcode i ≤ 39 → 2 ≤ i.length)

/-- The rules of SPIR-V that are used. -/
structure WellFormed (g : Dialect) (words : List UInt32) (code : List (List UInt32)) : Prop where
  framed : instructions words = .ok code
  numbered : g.Numbered (words.getD 3 0) code
  lengths : ∀ i ∈ code, HasLength i
  /-- What is loaded from a variable has its type. -/
  loads : ∀ l ∈ code, opcode l = 61 → ∀ v ∈ code, opcode v = 59 → v.getD 2 0 = l.getD 3 0 →
    ∀ p ∈ code, opcode p = 32 → p.getD 1 0 = v.getD 1 0 → l.getD 1 0 = p.getD 3 0
  /-- A copy has the type of its operand. -/
  copies : ∀ i ∈ code, opcode i = 83 → ∀ j ∈ code, g.resultOf j = some (i.getD 3 0) →
    g.typeOf j = some (i.getD 1 0)
  images : ∀ i ∈ code, opcode i = 100 → ∃ t ∈ code, opcode t = 25 ∧ t.getD 1 0 = i.getD 1 0
  /-- Images are defined before they are copied. -/
  ordered : ∀ pre i post, code = pre ++ i :: post → opcode i = 100 ∨ opcode i = 83 → ∀ j ∈ code,
    g.resultOf j = some (i.getD 3 0) → j ∈ pre
  /-- A fetch gives numbers, at a coordinate that is a number. -/
  fetches : ∀ i ∈ code, opcode i = 95 → NumberType code (i.getD 1 0) ∧
    ∃ j ∈ code, g.resultOf j = some (i.getD 4 0) ∧ ∃ type, g.typeOf j = some type ∧
      NumberType code type
  /-- A variable has one descriptor set and one binding. -/
  once : ∀ decoration ∈ [33, 34], ∀ i ∈ code, ∀ j ∈ code, ∀ id a b,
    decorationOf decoration i = some (id, a) → decorationOf decoration j = some (id, b) → a = b

/-! ## Values of fetches -/

/-- The constants have their values. -/
structure Plan.Holds (plan : Plan) (env : IdMap Value) : Prop where
  indexZero : env plan.indexZero = some (.words [0])
  zero : ∀ entry ∈ plan.scalars, env entry.2.zero = some (.words [0])
  one : ∀ entry ∈ plan.scalars, env entry.2.one = some (.words [oneWord entry.2.definition])

/-- The constants for bytes have their values. -/
structure BytePlan.Holds (plan : BytePlan) (env : IdMap Value) : Prop where
  two : env plan.two = some (.words [2])
  three : env plan.three = some (.words [3])
  twentyFour : env plan.twentyFour = some (.words [24])

/-- A word of the buffer. -/
def WordAt (m : Machine) (buffer scalar c word : UInt32) : Prop :=
  m.memory buffer (4 * c.toNat) scalar = some (.words [word])

/-- A byte of a word as a signed number. -/
def signedByte (word : UInt32) (k : Nat) : UInt32 :=
  (word >>> UInt32.ofNat (8 * k)).toUInt8.toInt8.toInt32.toUInt32

/-- A byte of the buffer, in its word from the low end on. -/
def ByteAt (m : Machine) (buffer scalar c byte : UInt32) : Prop :=
  ∃ word, m.memory buffer (4 * (c.toNat / 4)) scalar = some (.words [word]) ∧
    byte = signedByte word (c.toNat % 4)

/-- The body defines the result of the fetch, with its type: what the buffer has at the coordinate,
then 0, 0 and 1. -/
structure Fetches (g : Dialect) (layout : Layout) (holds : IdMap Value → Prop) (buffer : UInt32)
    (s : Scalar) (component : Machine → UInt32 → UInt32 → Prop) (i : List UInt32)
    (body : List (List UInt32)) : Prop where
  defines : ∃ last ∈ body, g.resultOf last = some (i.getD 2 0) ∧ g.typeOf last = some (i.getD 1 0)
  value : ∀ (m : Machine) (env : IdMap Value) (c red : UInt32), m.layout = layout → holds env →
    env buffer = some (.pointer buffer 0 s.block) → env (i.getD 4 0) = some (.words [c]) →
    component m c red → ∃ env', m.run env body = some env' ∧
      env' (i.getD 2 0) = some (.words [red, 0, 0, oneWord s.definition])

/-! ## Lowered modules -/

/-- What replaces an instruction. -/
inductive Rewritten (g : Dialect) (code : List (List UInt32)) (layout : Layout) (plan : Plan)
    (i : List UInt32) : List (List UInt32) → Prop
  | capability (op : opcode i = 17) (buffers : i.getD 1 0 = 46 ∨ i.getD 1 0 = 47) :
      Rewritten g code layout plan i []
  | name (op : opcode i = 5 ∨ opcode i = 71) (removed : Removed code (i.getD 1 0)) :
      Rewritten g code layout plan i []
  | type (low : 19 ≤ opcode i) (high : opcode i ≤ 39) (removed : Removed code (i.getD 1 0)) :
      Rewritten g code layout plan i []
  | moved (entry : UInt32 × Scalar) (listed : entry ∈ plan.scalars)
      (same : i = entry.2.definition) : Rewritten g code layout plan i []
  | image (buffer : UInt32) (op : opcode i = 61 ∨ opcode i = 100 ∨ opcode i = 83)
      (of : Alias code (i.getD 2 0) buffer) : Rewritten g code layout plan i []
  | declaration (entry : UInt32 × Scalar) (op : opcode i = 59) (listed : entry ∈ plan.scalars)
      (buffer : BufferVariable code (i.getD 2 0) entry.1) :
      Rewritten g code layout plan i [emit 59 [entry.2.pointer, i.getD 2 0, 2]]
  | fetch (buffer : UInt32) (entry : UInt32 × Scalar) (body : List (List UInt32))
      (fetch : BufferFetch code i buffer) (listed : entry ∈ plan.scalars)
      (typed : BufferVariable code buffer entry.1)
      (fetches : Fetches g layout plan.Holds buffer entry.2
        (fun m => WordAt m buffer entry.1) i body) : Rewritten g code layout plan i body
  | kept (other : ∀ buffer, ¬ BufferFetch code i buffer) : Rewritten g code layout plan i [i]

/-- The variable is a pointer to a buffer block. -/
structure Storage (code' : List (List UInt32)) (buffer : UInt32) (s : Scalar) : Prop where
  declared : ∃ d ∈ code', opcode d = 59 ∧ d.getD 2 0 = buffer ∧ d.getD 1 0 = s.pointer
  pointee : ∃ p ∈ code', opcode p = 32 ∧ p.getD 1 0 = s.pointer ∧ p.getD 3 0 = s.block

/-- A lowered module. -/
structure Lowered (g : Dialect) (words out : List UInt32) (code code' : List (List UInt32))
    (plan : Plan) (pieces : List Patch) : Prop where
  framed : instructions out = .ok code'
  header : out.take 5 = (words.take 5).set 3 (out.getD 3 0)
  numbered : g.Numbered (out.getD 3 0) code'
  fresh : ∀ id ∈ g.results code', id ∈ g.results code ∨ words.getD 3 0 ≤ id
  survivors : ∀ j ∈ code', ∀ id ∈ g.mentions j, ¬ Removed code id
  whole : code' = pieces.flatMap Patch.all
  inserted : (pieces.flatMap Patch.inserted).Perm
    (if HasBuffers code then plan.annotations ++ plan.declarations else [])
  /-- The number types that move. -/
  definitions : ∀ entry ∈ plan.scalars, entry.2.definition ∈ code
  constants : HasBuffers code → ∀ (m : Machine) (env : IdMap Value), ∃ env',
    m.run env (plan.declarations.filter fun i => opcode i == 43) = some env' ∧ plan.Holds env'
  buffers : ∀ id scalar, BufferVariable code id scalar →
    ∃ s, (scalar, s) ∈ plan.scalars ∧ Storage code' id s
  bodies : List.Forall₂ (fun i piece => Rewritten g code (layoutOf code') plan i piece.body)
    code pieces

/-- An access to a selected variable, or a load from one. -/
def ByteInstruction (code : List (List UInt32)) (bindings : List (UInt32 × UInt32))
    (i : List UInt32) : Prop :=
  (opcode i = 65 ∧ Selected code bindings (i.getD 3 0)) ∨
    (opcode i = 61 ∧ ∃ a ∈ code, opcode a = 65 ∧ a.getD 2 0 = i.getD 3 0 ∧
      Selected code bindings (a.getD 3 0))

/-- The module after both passes. -/
structure Narrowed (g : Dialect) (bindings : List (UInt32 × UInt32)) (out out' : List UInt32)
    (code code' code'' : List (List UInt32)) (plan : Plan) (bytes : BytePlan)
    (pieces : List Patch) : Prop where
  framed : instructions out' = .ok code''
  header : out'.take 5 = (out.take 5).set 3 (out'.getD 3 0)
  numbered : g.Numbered (out'.getD 3 0) code''
  fresh : ∀ id ∈ g.results code'', id ∈ g.results code' ∨ out.getD 3 0 ≤ id
  whole : code'' = pieces.flatMap Patch.all
  inserted : pieces.flatMap Patch.inserted = [] ∨
    pieces.flatMap Patch.inserted = bytes.declarations
  declared : ∀ id scalar, BufferVariable code id scalar → Selected code bindings id →
    (∃ f ∈ code', opcode f = 54) → pieces.flatMap Patch.inserted = bytes.declarations
  constants : ∀ (m : Machine) (env : IdMap Value), ∃ env',
    m.run env (bytes.declarations.filter fun i => opcode i == 43) = some env' ∧ bytes.Holds env'
  /-- Everything else is left. -/
  bodies : List.Forall₂ (fun i piece => piece.body = [i] ∨ ByteInstruction code' bindings i)
    code' pieces
  bytes : ∀ i ∈ code, ∀ buffer, BufferFetch code i buffer → Selected code bindings buffer →
    ∃ entry ∈ plan.scalars, BufferVariable code buffer entry.1 ∧ ∃ body, body <:+: code'' ∧
      Fetches g (layoutOf code'') (fun env => plan.Holds env ∧ bytes.Holds env) buffer entry.2
        (fun m => ByteAt m buffer entry.1) i body
  words : ∀ i ∈ code, ∀ buffer, BufferFetch code i buffer → ¬ Selected code bindings buffer →
    ∃ entry ∈ plan.scalars, BufferVariable code buffer entry.1 ∧ ∃ body, body <:+: code'' ∧
      Fetches g (layoutOf code'') plan.Holds buffer entry.2 (fun m => WordAt m buffer entry.1) i body

/-- The module is lowered, and then narrowed. -/
def Lowers (g : Dialect) (bindings : List (UInt32 × UInt32)) (words out out' : List UInt32)
    (code : List (List UInt32)) : Prop :=
  ∃ code' plan pieces, Lowered g words out code code' plan pieces ∧
    ∃ code'' bytes pieces', Narrowed g bindings out out' code code' code'' plan bytes pieces'

/-- The instructions that are left out or replaced. -/
def Replaced (code : List (List UInt32)) (i : List UInt32) : Prop :=
  (opcode i = 17 ∧ (i.getD 1 0 = 46 ∨ i.getD 1 0 = 47)) ∨
    ((opcode i = 5 ∨ opcode i = 71) ∧ Removed code (i.getD 1 0)) ∨
    ((19 ≤ opcode i ∧ opcode i ≤ 39) ∧ Removed code (i.getD 1 0)) ∨
    ((opcode i = 61 ∨ opcode i = 100 ∨ opcode i = 83) ∧ ∃ buffer, Alias code (i.getD 2 0) buffer) ∨
    (opcode i = 59 ∧ ∃ scalar, BufferVariable code (i.getD 2 0) scalar) ∨
    ∃ buffer, BufferFetch code i buffer

/-- What is removed is used only where it is left out or replaced. -/
def Lowerable (g : Dialect) (code : List (List UInt32)) : Prop :=
  ∀ i ∈ code, ¬ Replaced code i → ∀ id ∈ g.usesOf i, ¬ Removed code id

end Sgfx.Vulkan.TexelBuffers
