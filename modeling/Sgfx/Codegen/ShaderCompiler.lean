import Mathlib.Tactic.Common
import Sgfx.Library.Fallible

/-!
# Arithmetic of the shader compiler

The shader compiler emits scalar instructions over lanes: one component of one register.  A value
has its lanes in a row, a matrix column after column.  Products of matrices are emitted as dot
products, determinants as Laplace expansions along the first row, and inverses as transposed
cofactors.

Instructions and declarations are kept as data where the source keeps their text.  An index out of
bounds is a panic.

## Main Definitions

* `Lane`, `Value`, `Instruction`, `Compiler`
* `allocate`, `instruction`, `immediate`
* `binary`, `dot`, `matrixMinor`, `matrixDeterminant`, `math`
-/

namespace Sgfx.Codegen

/-- How compiling fails: an unsupported program, with the message, or a panic. -/
inductive CompileError where
  | unsupported (message : String)
  | panicked
deriving DecidableEq, Repr

/-- Register files. -/
inductive Register where
  | temp (index : Nat)
  | imm (index : Nat)
  | const (index : Nat)
  | input (index : Nat)
  | output (index : Nat)
deriving DecidableEq, Repr

/-- `Lane`. -/
structure Lane where
  register : Register
  component : Fin 4
deriving DecidableEq, Repr

/-- The lane that is allocated as the `n`-th one. -/
def Lane.temp (n : Nat) : Lane := ⟨.temp (n / 4), Fin.ofNat 4 n⟩

/-- `ScalarKind`. -/
inductive ScalarKind where
  | sint
  | uint
  | float
  | bool
  | abstractInt
  | abstractFloat
deriving DecidableEq, Repr

/-- `Shape`, without images, samplers and pointers, which have no lanes. -/
inductive Shape where
  | scalar (kind : ScalarKind)
  | vector (kind : ScalarKind) (size : Nat)
  | matrix (columns rows : Nat)
  | aggregate (items : List Shape)

mutual

/-- `Shape::len`. -/
def Shape.len : Shape → Nat
  | .scalar _ => 1
  | .vector _ size => size
  | .matrix columns rows => columns * rows
  | .aggregate items => Shape.lens items

/-- The lanes of all items. -/
def Shape.lens : List Shape → Nat
  | [] => 0
  | item :: items => item.len + Shape.lens items

end

/-- `Shape::kind`. -/
def Shape.kind : Shape → Except CompileError ScalarKind
  | .scalar kind => .ok kind
  | .vector kind _ => .ok kind
  | .matrix .. => .ok .float
  | .aggregate _ => .error (.unsupported "arithmetic on aggregate")

/-- `Value`, as far as arithmetic depends on it. -/
structure Value where
  shape : Shape
  lanes : List Lane

/-- Names of instructions. -/
inductive Opcode where
  | mov | add | sub | mul | div
  | uadd | umul | idiv | udiv | imod | umod | ineg
  | fseq | fsne | fslt | fsge | useq | usne | islt | isge | uslt | usge
  | and | or | xor | shl | ushr | ishr
deriving DecidableEq, Repr

/-- An instruction, with its sources. -/
structure Instruction where
  opcode : Opcode
  destination : Lane
  sources : List Lane
deriving DecidableEq, Repr

/-- The encoding of an immediate. -/
inductive Encoding where
  | flt32
  | int32
  | uint32
deriving DecidableEq, Repr

/-- The declaration of an immediate, whose four components are the same word. -/
structure Immediate where
  encoding : Encoding
  bits : UInt32
deriving DecidableEq, Repr

/-- `Literal`, with the bits of floats. -/
inductive Literal where
  | f32 (bits : UInt32)
  | i32 (bits : UInt32)
  | u32 (value : UInt32)
  | bool (value : Bool)
  | other
deriving DecidableEq, Repr

/-- `f32::is_finite`. -/
def f32IsFinite (bits : UInt32) : Bool := bits.toNat / 2 ^ 23 % 256 ≠ 255

/-- `Compiler`, as far as arithmetic depends on it. -/
structure Compiler where
  immediates : List Immediate
  instructions : List Instruction
  tempLanes : Nat
deriving DecidableEq, Repr

/-- `Compiler::new`. -/
def Compiler.empty : Compiler := ⟨[], [], 0⟩

/-- Computations of the compiler. -/
abbrev Compile (α : Type) : Type := Fallible Compiler CompileError α

/-- `unsupported`. -/
def unsupported {α : Type} (message : String) : Compile α := Fallible.fail (.unsupported message)

def moreTemporaries : CompileError := .unsupported "more than 1024 temporary registers"

def moreInstructions : CompileError := .unsupported "more than 16384 instructions"

/-- `lanes[index]`. -/
def laneAt (lanes : List Lane) (index : Nat) : Except CompileError Lane :=
  okOr lanes[index]? .panicked

/-- `Compiler::allocate`. -/
def allocate (shape : Shape) : Compile Value := do
  let compiler ← Fallible.read
  if 4096 < compiler.tempLanes + shape.len then Fallible.fail moreTemporaries
  else do
    Fallible.update fun compiler => { compiler with tempLanes := compiler.tempLanes + shape.len }
    return ⟨shape, (List.range shape.len).map fun i => .temp (compiler.tempLanes + i)⟩

/-- `Compiler::instruction`. -/
def instruction (opcode : Opcode) (destination : Lane) (sources : List Lane) : Compile Unit := do
  let compiler ← Fallible.read
  if 16384 ≤ compiler.instructions.length then Fallible.fail moreInstructions
  else
    Fallible.update fun compiler =>
      { compiler with instructions := compiler.instructions ++ [⟨opcode, destination, sources⟩] }

/-- The kind and the declaration of a literal. -/
def Literal.declaration : Literal → Except CompileError (ScalarKind × Immediate)
  | .f32 bits =>
      if f32IsFinite bits then .ok (.float, ⟨.flt32, bits⟩)
      else .error (.unsupported "literal width or non-finite float")
  | .i32 bits => .ok (.sint, ⟨.int32, bits⟩)
  | .u32 value => .ok (.uint, ⟨.uint32, value⟩)
  | .bool value => .ok (.bool, ⟨.uint32, if value then 0xFFFFFFFF else 0⟩)
  | .other => .error (.unsupported "literal width or non-finite float")

/-- `Compiler::immediate`. -/
def immediate (literal : Literal) : Compile Value := do
  let (kind, declaration) ← literal.declaration
  let compiler ← Fallible.read
  let index := compiler.immediates.findIdx (· = declaration)
  if index = compiler.immediates.length then
    Fallible.update fun compiler =>
      { compiler with immediates := compiler.immediates ++ [declaration] }
  return ⟨.scalar kind, [⟨.imm index, 0⟩]⟩

/-- `BinaryOperator`. -/
inductive BinaryOperator where
  | add | subtract | multiply | divide | modulo
  | equal | notEqual | less | lessEqual | greater | greaterEqual
  | and | exclusiveOr | inclusiveOr | logicalAnd | logicalOr | shiftLeft | shiftRight
deriving DecidableEq, Repr

/-- The opcodes of `binary`. -/
def binaryOpcode : BinaryOperator → ScalarKind → Option Opcode
  | .add, .float => some .add
  | .subtract, .float => some .sub
  | .multiply, .float => some .mul
  | .divide, .float => some .div
  | .add, .sint | .add, .uint => some .uadd
  | .multiply, .sint | .multiply, .uint => some .umul
  | .divide, .sint => some .idiv
  | .divide, .uint => some .udiv
  | .modulo, .sint => some .imod
  | .modulo, .uint => some .umod
  | .equal, .float => some .fseq
  | .notEqual, .float => some .fsne
  | .less, .float => some .fslt
  | .greaterEqual, .float => some .fsge
  | .equal, _ => some .useq
  | .notEqual, _ => some .usne
  | .less, .sint => some .islt
  | .greaterEqual, .sint => some .isge
  | .less, .uint => some .uslt
  | .greaterEqual, .uint => some .usge
  | .and, _ | .logicalAnd, _ => some .and
  | .inclusiveOr, _ | .logicalOr, _ => some .or
  | .exclusiveOr, _ => some .xor
  | .shiftLeft, _ => some .shl
  | .shiftRight, .uint => some .ushr
  | .shiftRight, .sint => some .ishr
  | _, _ => none

/-- The last part of `binary`: the operator lane by lane. -/
def elementwise (op : BinaryOperator) (a b : Value) (shape : Shape) : Compile Value := do
  let kind ← a.shape.kind
  let opcode ← (okOr (binaryOpcode op kind) (.unsupported "binary operator/type") :
    Except CompileError Opcode)
  let result ← allocate shape
  if ¬ (a.lanes.length = 1 ∨ a.lanes.length = result.lanes.length) ∨
      ¬ (b.lanes.length = 1 ∨ b.lanes.length = result.lanes.length) then
    unsupported "binary operand shape"
  else do
    Fallible.loop result.lanes.zipIdx fun (destination, i) => do
      let left ← laneAt a.lanes (i % a.lanes.length)
      let right ← laneAt b.lanes (i % b.lanes.length)
      instruction opcode destination [left, right]
    return result

/-- `Compiler::unary_instruction`. -/
def unaryInstruction (opcode : Opcode) (value : Value) (shape : Shape) : Compile Value := do
  let result ← allocate shape
  Fallible.loop (result.lanes.zip value.lanes) fun (destination, source) =>
    instruction opcode destination [source]
  return result

/-- `Compiler::dot`. -/
def dot (destination : Lane) (products : List (Lane × Lane)) : Compile Unit :=
  Fallible.loop products.zipIdx fun ((a, b), index) =>
    if index = 0 then instruction .mul destination [a, b]
    else do
      let temp ← allocate (.scalar .float)
      let product ← laneAt temp.lanes 0
      instruction .mul product [a, b]
      instruction .add destination [destination, product]

/-- The dot product of the lanes of `a` at `left k` and those of `b` at `right k`, for `k` below
`count`, into a lane of the result. -/
def dotLanes (result a b : Value) (place count : Nat) (left right : Nat → Nat) : Compile Unit := do
  let products ← ((List.range count).mapM fun k => do
    return (← laneAt a.lanes (left k), ← laneAt b.lanes (right k)) :
      Except CompileError (List (Lane × Lane)))
  let destination ← laneAt result.lanes place
  dot destination products

/-- `Compiler::binary`. -/
def binary (op : BinaryOperator) (a b : Value) (shape : Shape) : Compile Value :=
  match op, a.shape, b.shape with
  | .multiply, .matrix columns rows, .vector _ n =>
      if columns = n then do
        let result ← allocate shape
        Fallible.loop (List.range rows) fun row =>
          dotLanes result a b row columns (fun col => col * rows + row) fun col => col
        return result
      else elementwise .multiply a b shape
  | .multiply, .vector _ n, .matrix columns rows =>
      if n = rows then do
        let result ← allocate shape
        Fallible.loop (List.range columns) fun col =>
          dotLanes result a b col rows (fun row => row) fun row => col * rows + row
        return result
      else elementwise .multiply a b shape
  | .multiply, .matrix ac ar, .matrix bc br =>
      if ac = br then do
        let result ← allocate shape
        Fallible.loop (List.range bc) fun col =>
          Fallible.loop (List.range ar) fun row =>
            dotLanes result a b (col * ar + row) ac (fun k => k * ar + row) fun k => col * br + k
        return result
      else elementwise .multiply a b shape
  | op, _, _ => do
      let kind ← a.shape.kind
      match op, kind with
      | .greater, _ => elementwise .less b a shape
      | .lessEqual, _ => elementwise .greaterEqual b a shape
      | .subtract, .sint | .subtract, .uint => do
          let negated ← unaryInstruction .ineg b b.shape
          elementwise .add a negated shape
      | op, _ => elementwise op a b shape

/-- `Compiler::matrix_minor`. -/
def matrixMinor (lanes : List Lane) (size excludedRow excludedColumn : Nat) :
    Except CompileError (List Lane) :=
  (((List.range size).filter (· ≠ excludedColumn)).flatMap fun column =>
    ((List.range size).filter (· ≠ excludedRow)).map fun row => column * size + row).mapM
      (laneAt lanes)

/-- One turn of the loop of `matrix_determinant`, with the determinant of a smaller matrix. -/
def expansionTurn (lanes : List Lane) (size : Nat) (minorDeterminant : List Lane → Compile Value)
    (total : Lane) (column : Nat) : Compile Unit := do
  let minor ← matrixMinor lanes size 0 column
  let determinant ← minorDeterminant minor
  let product ← allocate (.scalar .float)
  let term ← laneAt product.lanes 0
  instruction .mul term [← laneAt lanes (column * size), ← laneAt determinant.lanes 0]
  if column = 0 then instruction .mov total [term]
  else instruction (if column % 2 = 0 then .add else .sub) total [total, term]

/-- `Compiler::matrix_determinant`. -/
def matrixDeterminant (lanes : List Lane) : (size : Nat) → Compile Value
  | 0 => allocate (.scalar .float)
  | 1 => do
      let result ← allocate (.scalar .float)
      instruction .mov (← laneAt result.lanes 0) [← laneAt lanes 0]
      return result
  | size + 2 => do
      let result ← allocate (.scalar .float)
      let total ← laneAt result.lanes 0
      Fallible.loop (List.range (size + 2))
        (expansionTurn lanes (size + 2) (fun minor => matrixDeterminant minor (size + 1)) total)
      return result

/-- `MathFunction`, as far as it is about matrices. -/
inductive MathFunction where
  | inverse
  | determinant
  | transpose
deriving DecidableEq, Repr

/-- The bits of `-1.0`. -/
def minusOne : UInt32 := 0xBF800000

/-- The part of `math` for inverses and determinants. -/
def inverseOrDeterminant (inverse : Bool) (a : Value) (shape : Shape) : Compile Value :=
  match a.shape with
  | .matrix columns rows =>
      if columns ≠ rows ∨ ¬ (2 ≤ columns ∧ columns ≤ 4) then
        unsupported "inverse/determinant matrix dimensions"
      else do
        let determinant ← matrixDeterminant a.lanes columns
        if inverse then do
          let result ← allocate shape
          Fallible.loop (List.range columns) fun column =>
            Fallible.loop (List.range rows) fun row => do
              let minor ← matrixMinor a.lanes columns column row
              let cofactor ← matrixDeterminant minor (columns - 1)
              let signed ← (if (column + row) % 2 = 0 then pure cofactor
                else do
                  let minusOne ← immediate (.f32 minusOne)
                  binary .multiply cofactor minusOne (.scalar .float))
              let place ← laneAt result.lanes (column * rows + row)
              instruction .div place [← laneAt signed.lanes 0, ← laneAt determinant.lanes 0]
          return result
        else return determinant
  | _ => unsupported "inverse/determinant matrix type"

/-- `Compiler::math`. -/
def math (function : MathFunction) (a : Value) (shape : Shape) : Compile Value :=
  match function with
  | .inverse => inverseOrDeterminant true a shape
  | .determinant => inverseOrDeterminant false a shape
  | .transpose =>
      match a.shape, shape with
      | .matrix columns rows, .matrix resultColumns resultRows =>
          if resultColumns = rows ∧ resultRows = columns then do
            let lanes ← (((List.range rows).flatMap fun column =>
              (List.range columns).map fun row => row * rows + column).mapM (laneAt a.lanes) :
                Except CompileError (List Lane))
            return ⟨shape, lanes⟩
          else unsupported "transpose result type"
      | .matrix _ _, _ => unsupported "transpose result type"
      | _, _ => unsupported "transpose type"

end Sgfx.Codegen
