import Mathlib
import Sgfx.Vulkan.InputAttachments
import Sgfx.Vulkan.SpirvValues

/-!
# Lowered input attachments

What `lower` promises for a module with subpass inputs: the texel that replaces a read, the handles
of depth attachments, and the interfaces of entry points.

## Main Definitions

* `WellFormed` — the rules of SPIR-V that are used
* `Fetches` — the value of what replaces a read
* `Rewritten`, `Lowers` — the module that is returned
* `Lowerable` — the modules for which it is right
-/

namespace Sgfx.Vulkan.InputAttachments

open Spirv

/-! ## Modules -/

section Modules

variable (g : Dialect) (code : List (List UInt32))

/-- A type of subpass data. -/
def SubpassType (type : UInt32) : Prop :=
  ∃ i ∈ code, isSubpassType i = true ∧ i.getD 1 0 = type

/-- The module has subpass data. -/
def HasSubpass : Prop := code.any isSubpassType = true

instance : Decidable (HasSubpass code) := inferInstanceAs (Decidable (_ = true))

/-- A variable with its attachment, and whether this is of depth. -/
def Attached (inputs : List (Option Bool)) (v : UInt32) (depth : Bool) : Prop :=
  ∃ d ∈ code, isIndex d = true ∧ d.getD 1 0 = v ∧ inputs[(d.getD 3 0).toNat]? = some (some depth)

/-- A read of a value with a type of subpass data. -/
structure SubpassRead (i : List UInt32) : Prop where
  op : opcode i = 98
  image : ∃ j ∈ code, g.resultOf j = some (i.getD 3 0) ∧
    ∃ type, g.typeOf j = some type ∧ SubpassType code type

/-- A load of the value of an id. -/
def LoadOf (image : UInt32) (l : List UInt32) : Prop :=
  l ∈ code ∧ opcode l = 61 ∧ l.getD 2 0 = image

/-- A constant that is zero. -/
inductive Zero : UInt32 → Prop
  | number (i : List UInt32) (member : i ∈ code) (op : opcode i = 43)
      (zeros : ∀ word ∈ i.drop 3, word = 0) : Zero (i.getD 2 0)
  | composite (i : List UInt32) (member : i ∈ code) (op : opcode i = 44)
      (parts : ∀ part ∈ i.drop 3, Zero part) : Zero (i.getD 2 0)
  | null (i : List UInt32) (member : i ∈ code) (op : opcode i = 46) : Zero (i.getD 2 0)

/-- An instruction of a function. -/
def Within (f i : List UInt32) : Prop :=
  ∃ pre body post, code = pre ++ f :: (body ++ post) ∧ opcode f = 54 ∧
    (∀ j ∈ body, opcode j ≠ 54) ∧ i ∈ body

/-- The function with the id has the instruction, or calls one that reaches it. -/
inductive Reaches (i : List UInt32) : UInt32 → Prop
  | here (f : List UInt32) (within : Within code f i) : Reaches i (f.getD 2 0)
  | call (f c : List UInt32) (within : Within code f c) (op : opcode c = 57)
      (reaches : Reaches i (c.getD 3 0)) : Reaches i (f.getD 2 0)

/-- An entry point of fragments. -/
structure FragmentEntry (e : List UInt32) : Prop where
  op : opcode e = 15
  model : e.getD 1 0 = 4

/-- The entry point reaches a read of subpass data. -/
def ReadsSubpass (e : List UInt32) : Prop :=
  ∃ r ∈ code, SubpassRead g code r ∧ Reaches code r (e.getD 2 0)

end Modules

/-- The rules of SPIR-V that are used. -/
structure WellFormed (g : Dialect) (words : List UInt32) (code : List (List UInt32)) : Prop where
  framed : instructions words = .ok code
  numbered : g.Numbered (words.getD 3 0) code
  capabilities : ∀ i ∈ code, opcode i = 17 → i.length = 2
  indices : ∀ i ∈ code, opcode i = 71 → i.getD 2 0 = 43 → i.length = 4
  /-- A variable has one attachment. -/
  once : ∀ i ∈ code, ∀ j ∈ code, isIndex i = true → isIndex j = true →
    i.getD 1 0 = j.getD 1 0 → i.getD 3 0 = j.getD 3 0
  /-- The names of entry points end. -/
  named : ∀ i ∈ code, opcode i = 15 → 4 ≤ i.length ∧ (i.drop 3).any endsString = true
  pointers : ∀ i ∈ code, opcode i = 32 → i.length = 4
  /-- What is loaded from a variable has its type. -/
  loads : ∀ l ∈ code, opcode l = 61 → ∀ v ∈ code, opcode v = 59 → v.getD 2 0 = l.getD 3 0 →
    ∀ p ∈ code, opcode p = 32 → p.getD 1 0 = v.getD 1 0 → l.getD 1 0 = p.getD 3 0
  /-- An image is defined before it is read. -/
  ordered : ∀ pre i post, code = pre ++ i :: post → opcode i = 98 → ∀ j ∈ code,
    g.resultOf j = some (i.getD 3 0) → j ∈ pre
  /-- Types are declared before functions. -/
  function : ∃ i ∈ code, opcode i = 54

/-! ## Reads -/

/-- The constants have their values. -/
structure Coordinate.Holds (c : Coordinate) (env : IdMap Value) : Prop where
  lod0 : env c.lod0 = some (.words [0])
  zero : env c.zero = some (.words [0])
  one : env c.one = some (.words [0x3f800000])

/-- What a depth texel reads as. -/
def texelValue (depth : Bool) (texel : List UInt32) : List UInt32 :=
  if depth then [texel.headD 0, 0, 0, 0x3f800000] else texel

/-- The body defines the result of the read, with its type: the texel of the image of the variable
at level 0, at the pixel of the fragment. -/
structure Fetches (g : Dialect) (c : Coordinate) (v : UInt32) (depth : Bool) (i : List UInt32)
    (body : List (List UInt32)) : Prop where
  defines : ∃ last ∈ body, g.resultOf last = some (i.getD 2 0) ∧ g.typeOf last = some (i.getD 1 0)
  value : ∀ (m : Machine) (env : IdMap Value) (x y z w : UInt32), c.Holds env →
    env c.coordVar = some (.pointer c.coordVar 0 c.vec4) →
    m.memory c.coordVar 0 c.vec4 = some (.words [x, y, z, w]) →
    env (i.getD 3 0) = some (.image v) →
    (m.fetch v [m.toSigned x, m.toSigned y] 0).length = 4 →
    ∃ env', m.run env body = some env' ∧ env' (i.getD 2 0) =
      some (.words (texelValue depth (m.fetch v [m.toSigned x, m.toSigned y] 0)))

/-! ## Lowered modules -/

/-- What replaces an instruction. -/
inductive Rewritten (g : Dialect) (code : List (List UInt32)) (inputs : List (Option Bool))
    (c : Coordinate) (i : List UInt32) : List (List UInt32) → Prop
  | capability (op : opcode i = 17) (capability : i.getD 1 0 = 40) : Rewritten g code inputs c i []
  | index (index : isIndex i = true) : Rewritten g code inputs c i []
  | entryPoint (entry : FragmentEntry i) (other : fragCoord code = none) :
      Rewritten g code inputs c i [emit 15 (i.drop 1 ++ [c.coordVar])]
  | type (copies : List UInt32) (op : opcode i = 25) (subpass : SubpassType code (i.getD 1 0)) :
      Rewritten g code inputs c i
        (emit 25 (sampledType i) :: copies.map fun type => emit 25 (depthType type i))
  | pointer (copy type : UInt32) (op : opcode i = 32) (subpass : SubpassType code (i.getD 3 0)) :
      Rewritten g code inputs c i [i, emit 32 [copy, i.getD 2 0, type]]
  | declaration (pointer : UInt32) (op : opcode i = 59)
      (depth : Attached code inputs (i.getD 2 0) true) :
      Rewritten g code inputs c i [emit 59 ((i.drop 1).set 0 pointer)]
  | load (type : UInt32) (op : opcode i = 61) (subpass : SubpassType code (i.getD 1 0))
      (depth : Attached code inputs (i.getD 3 0) true) :
      Rewritten g code inputs c i [emit 61 ((i.drop 1).set 0 type)]
  | read (v : UInt32) (depth : Bool) (body : List (List UInt32)) (read : SubpassRead g code i)
      (loaded : ∃ l, LoadOf code (i.getD 3 0) l ∧ l.getD 3 0 = v)
      (attached : Attached code inputs v depth) (offset : Zero code (i.getD 4 0))
      (fetches : Fetches g c v depth i body) : Rewritten g code inputs c i body
  | kept (other : ¬ SubpassRead g code i) : Rewritten g code inputs c i [i]

/-- The variable has an image of two dimensions, of depth or not, and so has what is loaded from
it. -/
structure Handle (code' : List (List UInt32)) (v : UInt32) (depth : Bool) (pointer : UInt32)
    (type : UInt32) : Prop where
  declared : ∃ d ∈ code', opcode d = 59 ∧ d.getD 2 0 = v ∧ d.getD 1 0 = pointer
  pointee : ∃ p ∈ code', opcode p = 32 ∧ p.getD 1 0 = pointer ∧ p.getD 3 0 = type
  image : ∃ t ∈ code', opcode t = 25 ∧ t.getD 1 0 = type ∧ t.getD 3 0 = 1 ∧
    t.getD 4 0 = if depth then 1 else 0
  loads : ∀ l ∈ code', opcode l = 61 → l.getD 3 0 = v → l.getD 1 0 = type

/-- An input variable with the coordinate of the fragment, which is four floats. -/
structure CoordinateVariable (code' : List (List UInt32)) (c : Coordinate) : Prop where
  decorated : ∃ d ∈ code', isFragCoord d = true ∧ d.getD 1 0 = c.coordVar
  declared : ∃ d ∈ code', opcode d = 59 ∧ d.getD 2 0 = c.coordVar ∧
    ∃ p ∈ code', opcode p = 32 ∧ p.getD 1 0 = d.getD 1 0 ∧ p.getD 2 0 = 1 ∧ p.getD 3 0 = c.vec4

/-! ### Ids -/

/-- The variables with depth attachments. -/
def depthVariables (code : List (List UInt32)) (inputs : List (Option Bool)) : List UInt32 :=
  (code.filter fun d => isIndex d && inputs[(d.getD 3 0).toNat]? == some (some true)).map
    (·.getD 1 0)

/-- Their pointers. -/
def depthPointers (code : List (List UInt32)) (inputs : List (Option Bool)) : List UInt32 :=
  ((depthVariables code inputs).filterMap (variableTypes code)).dedup

/-- Their types. -/
def depthTypes (code : List (List UInt32)) (inputs : List (Option Bool)) : List UInt32 :=
  ((depthPointers code inputs).filterMap fun p => (pointers code p).map Prod.snd).dedup

/-- A read of a loaded input takes three ids, or five if it is of depth. -/
def readIds (code : List (List UInt32)) (inputs : List (Option Bool)) (i : List UInt32) : Nat :=
  match decide (opcode i = 98), code.find? fun l => opcode l == 61 && l.getD 2 0 == i.getD 3 0 &&
      (subpassTypes code (l.getD 1 0)).isSome with
  | true, some l => if l.getD 3 0 ∈ depthVariables code inputs then 5 else 3
  | _, _ => 0

/-- The number of new ids. -/
def takenIds (code : List (List UInt32)) (inputs : List (Option Bool)) : Nat :=
  (depthTypes code inputs).length + (depthPointers code inputs).length +
    (if (fragCoord code).isSome then 7 else 8) + (code.map (readIds code inputs)).sum

/-! ### Promises -/

/-- The sections that are inserted. -/
def Coordinate.sections (c : Coordinate) (own : Option UInt32) : List (List UInt32) :=
  (if own.isSome then [] else [emit 71 [c.coordVar, 11, 15]]) ++ c.declarations own

/-- A lowered module. -/
structure Lowered (g : Dialect) (inputs : List (Option Bool)) (words out : List UInt32)
    (code code' : List (List UInt32)) (c : Coordinate) (pieces : List Patch) : Prop where
  framed : instructions out = .ok code'
  header : out.take 5 = (words.take 5).set 3 (out.getD 3 0)
  numbered : g.Numbered (out.getD 3 0) code'
  fresh : ∀ id ∈ g.results code', id ∈ g.results code ∨ words.getD 3 0 ≤ id
  /-- No addition overflows. -/
  taken : HasSubpass code →
    (out.getD 3 0).toNat = (words.getD 3 0).toNat + takenIds code inputs
  types : ∀ i ∈ code', isSubpassType i = false
  capabilities : ∀ i ∈ code', opcode i = 17 → i.getD 1 0 ≠ 40
  indices : ∀ i ∈ code', opcode i = 71 → i.getD 2 0 ≠ 43
  whole : code' = pieces.flatMap Patch.all
  inserted : (pieces.flatMap Patch.inserted).Perm
    (if HasSubpass code then c.sections (fragCoord code) else [])
  constants : HasSubpass code → ∀ (m : Machine) (env : IdMap Value), ∃ env',
    m.run env (c.constants.filter fun i => opcode i == 43) = some env' ∧ c.Holds env'
  coordinate : HasSubpass code → CoordinateVariable code' c
  own : ∀ id, HasSubpass code → fragCoord code = some id → c.coordVar = id
  bodies : List.Forall₂ (fun i piece => Rewritten g code inputs c i piece.body) code pieces
  handles : ∀ v depth, HasSubpass code → Attached code inputs v depth →
    ∃ pointer type, Handle code' v depth pointer type
  interfaces : ∀ e ∈ code', FragmentEntry e → ReadsSubpass g code e →
    c.coordVar ∈ afterString (e.drop 3)

/-- The module is lowered. -/
def Lowers (g : Dialect) (inputs : List (Option Bool)) (words : List UInt32)
    (code : List (List UInt32)) (out : List UInt32) : Prop :=
  ∃ code' c pieces, Lowered g inputs words out code code' c pieces

/-- A module without subpass types does not declare the capability or attachments.  Otherwise there
are ids and words for what is added, images are read where they are loaded, and a module with a
coordinate of its own lists it where it is needed. -/
structure Lowerable (g : Dialect) (inputs : List (Option Bool)) (words : List UInt32)
    (code : List (List UInt32)) : Prop where
  unused : ¬ HasSubpass code →
    (∀ i ∈ code, opcode i = 17 → i.getD 1 0 ≠ 40) ∧ ∀ i ∈ code, isIndex i = false
  ids : HasSubpass code → (words.getD 3 0).toNat + takenIds code inputs < 2 ^ 32
  lengths : HasSubpass code → fragCoord code = none → ∀ e ∈ code, FragmentEntry e →
    e.length < 65535
  loads : ∀ i ∈ code, SubpassRead g code i → ∃ l, LoadOf code (i.getD 3 0) l
  interfaces : ∀ id, fragCoord code = some id → ∀ e ∈ code, FragmentEntry e →
    ReadsSubpass g code e → id ∈ afterString (e.drop 3)

end Sgfx.Vulkan.InputAttachments
