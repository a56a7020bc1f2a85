import Sgfx.Vulkan.Specialization
import Sgfx.Vulkan.SpirvGrammar

/-!
# Values of SPIR-V ids

Straight-line instructions compute words, vectors of words, pointers and handles of images.  A
pointer is a byte offset in a variable; what a step into a type adds to it is the layout's.

## Main Definitions

* `Layout`, `walk` — byte offsets of parts
* `Machine` — memory, images and conversions
* `Machine.run` — the values of ids after some instructions

## Main Results

* `Machine.run_append`
-/

namespace Sgfx.Vulkan.Spirv

/-- The byte offset and the type of a part, by the type of the whole and the index. -/
abbrev Layout := UInt32 → UInt32 → Option (Nat × UInt32)

/-- The byte offset and the type at the end of a path. -/
def walk (layout : Layout) (type : UInt32) : List UInt32 → Option (Nat × UInt32)
  | [] => some (0, type)
  | index :: rest => do
    let (offset, part) ← layout type index
    let (inner, last) ← walk layout part rest
    some (offset + inner, last)

/-- A value: numbers, a byte of a variable with the type that is there, or the image in a
variable. -/
inductive Value
  | words (components : List UInt32)
  | pointer (base : UInt32) (offset : Nat) (pointee : UInt32)
  | image (base : UInt32)
deriving DecidableEq

/-- What instructions read besides values. -/
structure Machine where
  layout : Layout
  /-- What a variable holds at a byte offset, by its type. -/
  memory : UInt32 → Nat → UInt32 → Option Value
  /-- The texel of an image, by the coordinate and the level. -/
  fetch : UInt32 → List UInt32 → UInt32 → List UInt32
  /-- `OpConvertFToS` on a word. -/
  toSigned : UInt32 → UInt32

/-- The words of an id. -/
def vectorOf (env : IdMap Value) (id : UInt32) : Option (List UInt32) :=
  match env id with
  | some (.words components) => some components
  | _ => none

/-- The word of an id. -/
def loneWord (env : IdMap Value) (id : UInt32) : Option UInt32 :=
  match env id with
  | some (.words [word]) => some word
  | _ => none

/-- Shifts to the right, with zeros or with the sign, the shift to the left, and `OpBitwiseAnd`. -/
def binary (op a b : UInt32) : UInt32 :=
  if op = 194 then a >>> b
  else if op = 195 then (a.toInt32 >>> b.toInt32).toUInt32
  else if op = 196 then a <<< b
  else a &&& b

/-- The value that an instruction defines. -/
def Machine.value (m : Machine) (env : IdMap Value) (i : List UInt32) : Option Value :=
  if opcode i = 43 then some (.words (i.drop 3))
  else if opcode i = 61 then
    match env (i.getD 3 0) with
    | some (.pointer base offset _) => m.memory base offset (i.getD 1 0)
    | _ => none
  else if opcode i = 65 ∨ opcode i = 66 then
    match env (i.getD 3 0) with
    | some (.pointer base offset pointee) => do
      let indices ← (i.drop 4).mapM (loneWord env)
      let (inner, part) ← walk m.layout pointee indices
      some (.pointer base (offset + inner) part)
    | _ => none
  else if opcode i = 79 then do
    let first ← vectorOf env (i.getD 3 0)
    let second ← vectorOf env (i.getD 4 0)
    let lanes ← (i.drop 5).mapM fun lane => (first ++ second)[lane.toNat]?
    some (.words lanes)
  else if opcode i = 80 then ((i.drop 3).mapM (vectorOf env)).map fun parts => .words parts.flatten
  else if opcode i = 81 then do
    let components ← vectorOf env (i.getD 3 0)
    let word ← components[(i.getD 4 0).toNat]?
    some (.words [word])
  else if opcode i = 83 ∨ opcode i = 100 ∨ opcode i = 124 then env (i.getD 3 0)
  else if opcode i = 95 then
    match env (i.getD 3 0) with
    | some (.image base) => do
      let coordinate ← vectorOf env (i.getD 4 0)
      let level ← loneWord env (i.getD 6 0)
      some (.words (m.fetch base coordinate level))
    | _ => none
  else if opcode i = 110 then
    (vectorOf env (i.getD 3 0)).map fun components => .words (components.map m.toSigned)
  else if opcode i ∈ [194, 195, 196, 199] then do
    let a ← loneWord env (i.getD 3 0)
    let b ← loneWord env (i.getD 4 0)
    some (.words [binary (opcode i) a b])
  else none

/-- The values after an instruction. -/
def Machine.exec (m : Machine) (env : IdMap Value) (i : List UInt32) : Option (IdMap Value) :=
  (m.value env i).map (env.insert (i.getD 2 0))

/-- The values after some instructions. -/
def Machine.run (m : Machine) (env : IdMap Value) (code : List (List UInt32)) :
    Option (IdMap Value) :=
  code.foldlM m.exec env

section Run

variable {m : Machine} {env env' : IdMap Value} {i : List UInt32} {code : List (List UInt32)}
  {id : UInt32} {value : Value}

theorem Machine.run_nil : m.run env [] = some env := rfl

/-- One instruction, then the others. -/
theorem Machine.run_cons (first : m.value env i = some value) :
    m.run env (i :: code) = m.run (env.insert (i.getD 2 0) value) code := by
  unfold run
  rw [List.foldlM_cons, exec, first]
  rfl

/-- The same for an instruction that is written. -/
theorem Machine.run_emit {op type : UInt32} {rest : List UInt32}
    (first : m.value env (emit op (type :: id :: rest)) = some value) :
    m.run env (emit op (type :: id :: rest) :: code) = m.run (env.insert id value) code :=
  run_cons first

theorem Machine.run_append {rest : List (List UInt32)} (first : m.run env code = some env') :
    m.run env (code ++ rest) = m.run env' rest := by
  unfold run at first ⊢
  rw [List.foldlM_append, first]
  rfl

end Run

/-! ## Instructions -/

section Instructions

variable {m : Machine} {env : IdMap Value} {i : List UInt32} {id : UInt32}

theorem vectorOf_words {components : List UInt32} (h : env id = some (.words components)) :
    vectorOf env id = some components := by
  rw [vectorOf, h]

theorem loneWord_word {word : UInt32} (h : env id = some (.words [word])) :
    loneWord env id = some word := by
  rw [loneWord, h]

theorem Machine.value_constant (op : opcode i = 43) :
    m.value env i = some (.words (i.drop 3)) := by
  rw [value, op, if_pos rfl]

theorem Machine.value_load {base pointee : UInt32} {offset : Nat} (op : opcode i = 61)
    (pointer : env (i.getD 3 0) = some (.pointer base offset pointee)) :
    m.value env i = m.memory base offset (i.getD 1 0) := by
  rw [value, op, if_neg (by decide), if_pos rfl, pointer]

theorem Machine.value_access {base pointee part : UInt32} {offset inner : Nat}
    {indices : List UInt32} (op : opcode i = 65 ∨ opcode i = 66)
    (pointer : env (i.getD 3 0) = some (.pointer base offset pointee))
    (known : (i.drop 4).mapM (loneWord env) = some indices)
    (steps : walk m.layout pointee indices = some (inner, part)) :
    m.value env i = some (.pointer base (offset + inner) part) := by
  have constant : opcode i ≠ 43 := by rcases op with op | op <;> rw [op] <;> decide
  have load : opcode i ≠ 61 := by rcases op with op | op <;> rw [op] <;> decide
  rw [value, if_neg constant, if_neg load, if_pos op, pointer]
  dsimp only
  rw [known]
  show (walk m.layout pointee indices >>= _) = _
  rw [steps]
  rfl

theorem Machine.value_shuffle {first second lanes : List UInt32} (op : opcode i = 79)
    (first_words : env (i.getD 3 0) = some (.words first))
    (second_words : env (i.getD 4 0) = some (.words second))
    (selected : (i.drop 5).mapM (fun lane => (first ++ second)[lane.toNat]?) = some lanes) :
    m.value env i = some (.words lanes) := by
  rw [value, op, if_neg (by decide), if_neg (by decide), if_neg (by decide), if_pos rfl,
    vectorOf_words first_words, vectorOf_words second_words]
  show ((i.drop 5).mapM (fun lane => (first ++ second)[lane.toNat]?) >>= _) = _
  rw [selected]
  rfl

theorem Machine.value_construct {parts : List (List UInt32)} (op : opcode i = 80)
    (known : (i.drop 3).mapM (vectorOf env) = some parts) :
    m.value env i = some (.words parts.flatten) := by
  rw [value, op, if_neg (by decide), if_neg (by decide), if_neg (by decide), if_neg (by decide),
    if_pos rfl, known]
  rfl

theorem Machine.value_extract {components : List UInt32} {word : UInt32} (op : opcode i = 81)
    (whole : env (i.getD 3 0) = some (.words components))
    (part : components[(i.getD 4 0).toNat]? = some word) :
    m.value env i = some (.words [word]) := by
  rw [value, op, if_neg (by decide), if_neg (by decide), if_neg (by decide), if_neg (by decide),
    if_neg (by decide), if_pos rfl, vectorOf_words whole]
  show (components[(i.getD 4 0).toNat]? >>= _) = _
  rw [part]
  rfl

theorem Machine.value_copy (op : opcode i ∈ [83, 100, 124]) : m.value env i = env (i.getD 3 0) := by
  simp only [List.mem_cons, List.not_mem_nil, or_false] at op
  unfold value
  rcases op with op | op | op <;> rw [op] <;> rfl

theorem Machine.value_fetch {base level : UInt32} {coordinate : List UInt32} (op : opcode i = 95)
    (image : env (i.getD 3 0) = some (.image base))
    (at_ : env (i.getD 4 0) = some (.words coordinate))
    (lod : env (i.getD 6 0) = some (.words [level])) :
    m.value env i = some (.words (m.fetch base coordinate level)) := by
  rw [value, op, if_neg (by decide), if_neg (by decide), if_neg (by decide), if_neg (by decide),
    if_neg (by decide), if_neg (by decide), if_neg (by decide), if_pos rfl, image]
  dsimp only
  rw [vectorOf_words at_, loneWord_word lod]
  rfl

theorem Machine.value_convert {components : List UInt32} (op : opcode i = 110)
    (known : env (i.getD 3 0) = some (.words components)) :
    m.value env i = some (.words (components.map m.toSigned)) := by
  rw [value, op, if_neg (by decide), if_neg (by decide), if_neg (by decide), if_neg (by decide),
    if_neg (by decide), if_neg (by decide), if_neg (by decide), if_neg (by decide), if_pos rfl,
    vectorOf_words known]
  rfl

theorem Machine.value_binary {a b : UInt32} (op : opcode i ∈ [194, 195, 196, 199])
    (left : env (i.getD 3 0) = some (.words [a])) (right : env (i.getD 4 0) = some (.words [b])) :
    m.value env i = some (.words [binary (opcode i) a b]) := by
  simp only [List.mem_cons, List.not_mem_nil, or_false] at op
  unfold value
  rw [loneWord_word left, loneWord_word right]
  rcases op with op | op | op | op <;> rw [op] <;> rfl

end Instructions

end Sgfx.Vulkan.Spirv
