import Sgfx.Vulkan.Specialization

/-!
# Freezing and rewriting

To supply values is to rewrite the defaults of specialization constants, and to freeze the module
without values.  Both give one module, unless a constant gets its specialization id from a
decoration group: freezing does not look there.

## Main Definitions

* `specIdOf`, `rewrite` — the defaults rewritten
* `WellFormed` — the rules of SPIR-V for specialization constants
* `FreezeLaw`, `GroupsKeep`

## Main Results

* `FreezesTo`, `freezeLoop_cons` — what one instruction emits
* `freezeLoop_freezes`, `freezeLoop_plain` — what the loop emits, and that it keeps it
-/

namespace Sgfx.Vulkan.Spirv

/-! ## Rewriting -/

/-- The specialization id of a constant: its own, or that of a group of which it is a target. -/
def specIdOf (code : List (List UInt32)) (id : UInt32) : Option UInt32 :=
  specIds code id <|> (code.filter fun i => opcode i == 74 && (i.drop 2).contains id).findSome?
    fun i => specIds code (i.getD 1 0)

/-- A constant with another default. -/
def withDefault (value : UInt32) (i : List UInt32) : List UInt32 :=
  if opcode i = 48 ∨ opcode i = 49 then emit (if value ≠ 0 then 48 else 49) (i.drop 1)
  else if opcode i = 50 then i.set 3 value
  else i

/-- The value that is supplied for the specialization id of a constant. -/
def override (code : List (List UInt32)) (values : Specialization) (id : UInt32) : Option UInt32 :=
  ((specIdOf code id).bind (lookupData values)).bind fun data => (wordOfData data).toOption

/-- An instruction with the supplied default. -/
def rewriteInstruction (code : List (List UInt32)) (values : Specialization) (i : List UInt32) :
    List UInt32 :=
  match override code values (i.getD 2 0) with
  | some value => withDefault value i
  | none => i

/-- The module with the supplied defaults. -/
def rewrite (code : List (List UInt32)) (values : Specialization) (words : List UInt32) :
    List UInt32 :=
  words.take 5 ++ (code.map (rewriteInstruction code values)).flatten

/-! ## Well-formed modules -/

/-- The type is `OpTypeBool`. -/
def isBoolean (code : List (List UInt32)) (type : UInt32) : Bool :=
  match scalarTypes code type with
  | some i => isBooleanType i
  | none => false

/-- The type is a number of 32 bits. -/
def isWord (code : List (List UInt32)) (type : UInt32) : Bool :=
  match scalarTypes code type with
  | some i => !isBooleanType i && i.getD 2 0 == 32
  | none => false

/-- The opcodes of constants that are scalars. -/
def isScalarConstant (op : UInt32) : Bool :=
  op == 41 || op == 42 || op == 43 || op == 48 || op == 49 || op == 50 || op == 52

/-- The id is a truth value. -/
def isTruthValue (code : List (List UInt32)) (id : UInt32) : Bool :=
  code.any fun i => isScalarConstant (opcode i) && i.getD 2 0 == id && isBoolean code (i.getD 1 0)

/-- The expressions that take numbers. -/
def numberOpcodes : List UInt32 :=
  [113, 114, 124, 126, 200, 128, 130, 132, 134, 135, 137, 138, 139, 170, 171, 172, 173, 174, 175,
    176, 177, 178, 179, 194, 195, 196, 197, 198, 199]

/-- The expression takes numbers. -/
def takesNumbers (op : UInt32) : Bool := numberOpcodes.contains op

/-- An expression takes numbers where its opcode does, and selects values of its own type. -/
def operandsTyped (code : List (List UInt32)) (i : List UInt32) : Bool :=
  if takesNumbers (i.getD 3 0) then (i.drop 4).all fun id => !isTruthValue code id
  else if i.getD 3 0 == 169 then
    isBoolean code (i.getD 1 0) || (i.drop 5).all fun id => !isTruthValue code id
  else true

/-- The rules of SPIR-V for specialization constants. -/
structure WellFormed (code : List (List UInt32)) : Prop where
  /-- `OpSpecConstantTrue` and `OpSpecConstantFalse` are truth values. -/
  booleans : code.all (fun i =>
    !(opcode i == 48 || opcode i == 49) || isBoolean code (i.getD 1 0)) = true
  /-- `OpSpecConstant` is a number, and has as many words as its type. -/
  numbers : code.all (fun i => !(opcode i == 50) ||
    (!isBoolean code (i.getD 1 0) && (!isWord code (i.getD 1 0) || i.length == 4))) = true
  /-- Expressions have no specialization ids. -/
  targets : code.all (fun i => !(opcode i == 52) || (specIds code (i.getD 2 0)).isNone) = true
  /-- The operands of expressions have the types that the expressions take. -/
  operands : code.all (fun i => !(opcode i == 52) || operandsTyped code i) = true

/-- A specialization constant and what it is frozen to: the same result and the same type. -/
def Freezes (i j : List UInt32) : Prop :=
  if isSpecialization (opcode i) = true then
    j.getD 1 0 = i.getD 1 0 ∧ j.getD 2 0 = i.getD 2 0 ∧ isSpecialization (opcode j) = false
  else j = i

/-- What is said of a module that was frozen: it has no specialization constants or ids, but all
other instructions, and the results and types of the constants.  Rewriting the defaults and freezing
without values gives the same, and so does freezing it again. -/
structure FreezeLaw (words : List UInt32) (values : Specialization) (code : List (List UInt32))
    (frozen : List UInt32) : Prop where
  header : frozen.take 5 = words.take 5
  instructions : ∃ code', Spirv.instructions frozen = .ok code' ∧
    List.Forall₂ Freezes (code.filter fun i => !isSpecId i) code' ∧
    ∀ i ∈ code', isSpecialization (opcode i) = false ∧ isSpecId i = false
  rewritten : freeze (rewrite code values words) [] = .ok frozen
  again : ∀ values', freeze frozen values' = .ok frozen

/-- Constants whose specialization ids come from decoration groups have no other values than their
defaults. -/
def GroupsKeep (code : List (List UInt32)) (values : Specialization) : Prop :=
  ∀ i ∈ code, specIds code (i.getD 2 0) = none →
    ∀ value, override code values (i.getD 2 0) = some value → withDefault value i = i

/-! ## One instruction -/

section Instruction

variable {ids : IdMap UInt32} {types : IdMap (List UInt32)} {values : Specialization}
  {constants constants' : IdMap UInt32} {i : List UInt32} {emitted : List (List UInt32)}

/-- The opcode is that of a scalar specialization constant. -/
def isScalarSpecialization (op : UInt32) : Bool := op == 48 || op == 49 || op == 50 || op == 52

/-- The type of a constant that can be frozen. -/
def isFreezable (type : List UInt32) : Prop :=
  isBooleanType type = true ∨ (3 ≤ type.length ∧ type.getD 2 0 = 32)

/-- What an instruction emits, and what it does to the values of constants. -/
inductive FreezesTo (ids : IdMap UInt32) (types : IdMap (List UInt32)) (values : Specialization)
    (constants : IdMap UInt32) (i : List UInt32) : List (List UInt32) → IdMap UInt32 → Prop
  | specId (h : isSpecId i = true) : FreezesTo ids types values constants i [] constants
  | other (h : isSpecId i = false) (plain : isSpecialization (opcode i) = false) :
      FreezesTo ids types values constants i [i] (recordConstant constants i)
  | composite (op : opcode i = 51) (length : 3 ≤ i.length) :
      FreezesTo ids types values constants i [emit 44 (i.drop 1)] constants
  | scalar (op : isScalarSpecialization (opcode i) = true) (length : 3 ≤ i.length)
      {type : List UInt32} (declared : types (i.getD 1 0) = some type)
      (freezable : isFreezable type) {value : UInt32}
      (resolved : resolve ids values constants i = .ok value) :
      FreezesTo ids types values constants i [plainConstant type i value]
        (constants.insert (i.getD 2 0) value)

theorem isSpecId_of_specialization (h : isSpecialization (opcode i) = true) :
    isSpecId i = false := by
  unfold isSpecId
  rw [Bool.and_eq_false_iff, Bool.and_eq_false_iff]
  refine .inl (.inl (beq_eq_false_iff_ne.mpr fun decorate => ?_))
  rw [decorate] at h
  cases h

theorem scalar_or_composite (h : isSpecialization (opcode i) = true) (other : opcode i ≠ 51) :
    isScalarSpecialization (opcode i) = true := by
  unfold isSpecialization at h
  unfold isScalarSpecialization
  simp only [Bool.or_eq_true, beq_iff_eq] at h ⊢
  tauto

theorem specialization_of_scalar (h : isScalarSpecialization (opcode i) = true) :
    isSpecialization (opcode i) = true ∧ opcode i ≠ 51 := by
  unfold isScalarSpecialization at h
  unfold isSpecialization
  simp only [Bool.or_eq_true, beq_iff_eq] at h ⊢
  rcases h with ((h | h) | h) | h <;> rw [h] <;> decide

theorem freezesTo_of_ok
    (h : freezeInstruction ids types values constants i = .ok (emitted, constants')) :
    FreezesTo ids types values constants i emitted constants' := by
  unfold freezeInstruction at h
  split at h
  · rename_i decoration
    cases h
    exact .specId decoration
  split at h
  · rename_i decoration plain
    cases h
    exact .other (Bool.eq_false_iff.mpr decoration) plain
  rename_i special
  have special := eq_true_of_ne_false special
  split at h
  · cases h
  rename_i length
  split at h
  · rename_i op
    cases h
    exact .composite op (Nat.le_of_not_lt length)
  rename_i op
  rw [except_bind_eq_ok] at h
  obtain ⟨type, htype, h⟩ := h
  rw [except_bind_eq_ok] at h
  obtain ⟨_, width, h⟩ := h
  have freezable : isFreezable type := by
    rw [failIf_eq_ok, not_and_or, not_or, Nat.not_lt, Bool.not_eq_false] at width
    exact width.imp_right fun both => ⟨both.1, Decidable.not_not.mp both.2⟩
  rw [except_bind_eq_ok] at h
  obtain ⟨value, resolved, h⟩ := h
  cases h
  exact .scalar (scalar_or_composite special op) (Nat.le_of_not_lt length) (okOr_eq_ok.mp htype)
    freezable resolved

theorem FreezesTo.ok (h : FreezesTo ids types values constants i emitted constants') :
    freezeInstruction ids types values constants i = .ok (emitted, constants') := by
  unfold freezeInstruction
  cases h with
  | specId h => rw [if_pos h]
  | other h plain => rw [if_neg (Bool.eq_false_iff.mp h), if_pos plain]
  | composite op length =>
    have special : isSpecialization (opcode i) = true := by
      rw [op]
      rfl
    have decoration := isSpecId_of_specialization special
    rw [if_neg (Bool.eq_false_iff.mp decoration), if_neg (ne_false_of_eq_true special),
      if_neg (Nat.not_lt_of_le length), if_pos op]
  | scalar op length declared freezable resolved =>
    rename_i type value
    obtain ⟨special, other⟩ := specialization_of_scalar op
    have decoration := isSpecId_of_specialization special
    have width : ¬ (isBooleanType type = false ∧ (type.length < 3 ∨ type.getD 2 0 ≠ 32)) := by
      rintro ⟨number, narrow⟩
      rcases freezable with boolean | ⟨long, word⟩
      · exact Bool.noConfusion (number.symm.trans boolean)
      · exact narrow.elim (Nat.not_lt_of_le long) fun different => different word
    rw [if_neg (Bool.eq_false_iff.mp decoration), if_neg (ne_false_of_eq_true special),
      if_neg (Nat.not_lt_of_le length), if_neg other]
    refine except_bind_eq_ok.mpr ⟨type, okOr_eq_ok.mpr declared, ?_⟩
    refine except_bind_eq_ok.mpr ⟨(), failIf_eq_ok.mpr width, ?_⟩
    exact except_bind_eq_ok.mpr ⟨value, resolved, rfl⟩

/-! ### What is emitted -/

/-- An emitted instruction is framed, and is no specialization constant or id. -/
structure Plain (j : List UInt32) : Prop where
  framed : Framed j
  plain : isSpecialization (opcode j) = false
  undecorated : isSpecId j = false

/-- A plain constant that is emitted. -/
theorem plain_emit {op : UInt32} {operands : List UInt32} (constant : op ∈ [41, 42, 43, 44])
    (short : operands.length + 1 < 65536) : Plain (emit op operands) := by
  have bounds : op < 65536 ∧ isSpecialization op = false ∧ op ≠ 71 := by
    simp only [List.mem_cons, List.not_mem_nil, or_false] at constant
    rcases constant with rfl | rfl | rfl | rfl <;> decide
  obtain ⟨small, plain, other⟩ := bounds
  have same := opcode_emit small short
  refine ⟨framed_emit small short, same.symm ▸ plain, ?_⟩
  unfold isSpecId
  rw [same, beq_eq_false_iff_ne.mpr other]
  rfl

theorem plain_plainConstant (type : List UInt32) (value : UInt32) :
    Plain (plainConstant type i value) := by
  unfold plainConstant
  split
  · refine plain_emit ?_ (show 3 < 65536 by decide)
    split
    · exact List.mem_cons_self
    · exact List.mem_cons_of_mem _ List.mem_cons_self
  · exact plain_emit (by simp) (show 4 < 65536 by decide)

/-- A frozen constant has the result and the type of its instruction. -/
theorem getD_plainConstant (type : List UInt32) (value : UInt32) :
    (plainConstant type i value).getD 1 0 = i.getD 1 0 ∧
      (plainConstant type i value).getD 2 0 = i.getD 2 0 := by
  unfold plainConstant
  split
  · exact ⟨rfl, rfl⟩
  · exact ⟨rfl, rfl⟩

/-- The operands of an instruction that is emitted with another opcode. -/
theorem getD_emit {op : UInt32} (framed : Framed i) (n : Nat) :
    (emit op (i.drop 1)).getD (n + 1) 0 = i.getD (n + 1) 0 := by
  cases i with
  | nil => exact absurd framed.nonempty (Nat.lt_irrefl 0)
  | cons word operands => rfl

theorem Framed.drop_short (framed : Framed i) : (i.drop 1).length + 1 < 65536 := by
  have length := framed.length_lt
  have nonempty := framed.nonempty
  rw [List.length_drop]
  omega

theorem FreezesTo.plain (h : FreezesTo ids types values constants i emitted constants')
    (framed : Framed i) : ∀ j ∈ emitted, Plain j := by
  intro j member
  cases h with
  | specId h => cases member
  | other h plain =>
    obtain rfl := List.mem_singleton.mp member
    exact ⟨framed, plain, h⟩
  | composite op length =>
    obtain rfl := List.mem_singleton.mp member
    exact plain_emit (by simp) framed.drop_short
  | scalar op length declared freezable resolved =>
    obtain rfl := List.mem_singleton.mp member
    exact plain_plainConstant ..

theorem Freezes.of_plain (plain : isSpecialization (opcode i) = false) : Freezes i i := by
  unfold Freezes
  rw [if_neg (ne_true_of_eq_false plain)]

theorem Freezes.of_special {j : List UInt32} (special : isSpecialization (opcode i) = true)
    (h : Plain j) (type : j.getD 1 0 = i.getD 1 0) (id : j.getD 2 0 = i.getD 2 0) :
    Freezes i j := by
  unfold Freezes
  rw [if_pos special]
  exact ⟨type, id, h.plain⟩

/-- The emitted instructions are those of the module without its specialization ids. -/
theorem FreezesTo.freezes (h : FreezesTo ids types values constants i emitted constants')
    (framed : Framed i) :
    if isSpecId i = true then emitted = [] else ∃ j, emitted = [j] ∧ Freezes i j := by
  cases h with
  | specId h => rw [if_pos h]
  | other h plain =>
    rw [if_neg (ne_true_of_eq_false h)]
    exact ⟨i, rfl, Freezes.of_plain plain⟩
  | composite op length =>
    have special : isSpecialization (opcode i) = true := op ▸ rfl
    rw [if_neg (ne_true_of_eq_false (isSpecId_of_specialization special))]
    exact ⟨_, rfl, Freezes.of_special special (plain_emit (by simp) framed.drop_short)
      (getD_emit framed 0) (getD_emit framed 1)⟩
  | scalar op length declared freezable resolved =>
    have special := (specialization_of_scalar op).1
    rw [if_neg (ne_true_of_eq_false (isSpecId_of_specialization special))]
    obtain ⟨type, id⟩ := getD_plainConstant _ _
    exact ⟨_, rfl, Freezes.of_special special (plain_plainConstant ..) type id⟩

end Instruction

/-! ## The loop -/

section Loop

variable {ids : IdMap UInt32} {types : IdMap (List UInt32)} {values : Specialization}
  {constants : IdMap UInt32} {code code' : List (List UInt32)}

theorem freezeLoop_cons {i : List UInt32} {rest : List (List UInt32)} :
    freezeLoop ids types values constants (i :: rest) = .ok code' ↔
      ∃ emitted constants' later, FreezesTo ids types values constants i emitted constants' ∧
        freezeLoop ids types values constants' rest = .ok later ∧ code' = emitted ++ later := by
  rw [freezeLoop, except_bind_eq_ok]
  constructor
  · rintro ⟨⟨emitted, constants'⟩, first, h⟩
    obtain ⟨later, hlater, h⟩ := except_bind_eq_ok.mp h
    exact ⟨emitted, constants', later, freezesTo_of_ok first, hlater, (Except.ok.inj h).symm⟩
  · rintro ⟨emitted, constants', later, first, hlater, rfl⟩
    exact ⟨(emitted, constants'), first.ok, except_bind_eq_ok.mpr ⟨later, hlater, rfl⟩⟩

/-- A frozen module has the instructions of the module without its specialization ids. -/
theorem freezeLoop_freezes (framed : ∀ i ∈ code, Framed i)
    (h : freezeLoop ids types values constants code = .ok code') :
    List.Forall₂ Freezes (code.filter fun i => !isSpecId i) code' ∧ ∀ j ∈ code', Plain j := by
  induction code generalizing constants code' with
  | nil =>
    cases h
    exact ⟨.nil, fun j member => (List.not_mem_nil member).elim⟩
  | cons i rest ih =>
    obtain ⟨emitted, constants', later, first, hlater, rfl⟩ := freezeLoop_cons.mp h
    have here := framed i List.mem_cons_self
    obtain ⟨related, plain⟩ := ih (fun j member => framed j (List.mem_cons_of_mem _ member)) hlater
    refine ⟨?_, fun j member => ?_⟩
    · have each := first.freezes here
      split at each
      · rename_i decoration
        subst each
        rw [List.filter_cons_of_neg (by rw [decoration]; decide)]
        exact related
      · rename_i decoration
        obtain ⟨j, rfl, freezes⟩ := each
        rw [List.filter_cons_of_pos (by rw [Bool.eq_false_iff.mpr decoration]; rfl)]
        exact .cons freezes related
    · rcases List.mem_append.mp member with member | member
      · exact first.plain here j member
      · exact plain j member

/-- Plain instructions stay as they are. -/
theorem freezeLoop_plain (plain : ∀ j ∈ code, Plain j) :
    freezeLoop ids types values constants code = .ok code := by
  induction code generalizing constants with
  | nil => rfl
  | cons i rest ih =>
    have here := plain i List.mem_cons_self
    refine freezeLoop_cons.mpr ⟨[i], _, rest, .other here.undecorated here.plain, ?_, rfl⟩
    exact ih fun j member => plain j (List.mem_cons_of_mem _ member)

end Loop

/-! ## Rewriting defaults -/

section Rewriting

variable {code : List (List UInt32)} {values : Specialization} {i : List UInt32} {value : UInt32}

/-- The opcode is that of a constant with a default. -/
def hasDefault (op : UInt32) : Bool := op == 48 || op == 49 || op == 50

theorem withDefault_other (h : hasDefault (opcode i) = false) : withDefault value i = i := by
  unfold hasDefault at h
  rw [Bool.or_eq_false_iff, Bool.or_eq_false_iff] at h
  obtain ⟨⟨first, second⟩, third⟩ := h
  unfold withDefault
  rw [if_neg (not_or.mpr ⟨beq_eq_false_iff_ne.mp first, beq_eq_false_iff_ne.mp second⟩),
    if_neg (beq_eq_false_iff_ne.mp third)]

/-- What another default changes: not the id, the type or the kind of the constant. -/
structure SameConstant (i j : List UInt32) : Prop where
  framed : Framed j
  default : hasDefault (opcode j) = true
  length : j.length = i.length
  type : j.getD 1 0 = i.getD 1 0
  id : j.getD 2 0 = i.getD 2 0

theorem sameConstant_withDefault (framed : Framed i) (h : hasDefault (opcode i) = true) :
    SameConstant i (withDefault value i) := by
  unfold withDefault
  split
  · have op : (if value ≠ 0 then (48 : UInt32) else 49) < 65536 ∧
        hasDefault (if value ≠ 0 then 48 else 49) = true := by
      split
      · exact ⟨by decide, rfl⟩
      · exact ⟨by decide, rfl⟩
    refine ⟨framed_emit op.1 framed.drop_short, ?_, ?_, getD_emit framed 0, getD_emit framed 1⟩
    · rw [opcode_emit op.1 framed.drop_short]
      exact op.2
    · have nonempty := framed.nonempty
      rw [emit, List.length_cons, List.length_drop]
      omega
  · split
    · have same : opcode (i.set 3 value) = opcode i := opcode_set (by decide) value
      refine ⟨framed.set (by decide) value, same.symm ▸ h, List.length_set, ?_, ?_⟩
      · rw [List.getD_eq_getElem?_getD, List.getElem?_set_ne (by decide),
          List.getD_eq_getElem?_getD]
      · rw [List.getD_eq_getElem?_getD, List.getElem?_set_ne (by decide),
          List.getD_eq_getElem?_getD]
    · exact ⟨framed, h, rfl, rfl, rfl⟩

/-- An instruction is rewritten to itself, or is a constant that gets another default. -/
theorem rewriteInstruction_cases (code : List (List UInt32)) (values : Specialization)
    (i : List UInt32) :
    rewriteInstruction code values i = i ∨
      ∃ value, override code values (i.getD 2 0) = some value ∧ hasDefault (opcode i) = true ∧
        rewriteInstruction code values i = withDefault value i := by
  unfold rewriteInstruction
  cases h : override code values (i.getD 2 0) with
  | none => exact .inl rfl
  | some value =>
    cases default : hasDefault (opcode i) with
    | false => exact .inl (withDefault_other default)
    | true => exact .inr ⟨value, rfl, rfl, rfl⟩

theorem framed_rewrite (framed : Framed i) : Framed (rewriteInstruction code values i) := by
  rcases rewriteInstruction_cases .. with same | ⟨value, -, default, same⟩
  · rw [same]
    exact framed
  · rw [same]
    exact (sameConstant_withDefault framed default).framed

theorem isScalarType_of_default (h : hasDefault (opcode i) = true) : isScalarType i = false := by
  unfold hasDefault at h
  unfold isScalarType
  simp only [Bool.or_eq_true, beq_iff_eq] at h
  rcases h with (h | h) | h <;> rw [h] <;> rfl

/-- Defaults are no types. -/
theorem scalarTypes_rewrite (framed : ∀ i ∈ code, Framed i) (all : List (List UInt32))
    (values : Specialization) :
    scalarTypes (code.map (rewriteInstruction all values)) = scalarTypes code := by
  unfold scalarTypes
  congr 1
  induction code with
  | nil => rfl
  | cons i rest ih =>
    have later := ih fun j member => framed j (List.mem_cons_of_mem _ member)
    rw [List.map_cons]
    rcases rewriteInstruction_cases .. with same | ⟨value, -, default, same⟩
    · rw [same]
      cases kind : isScalarType i with
      | true => rw [List.filter_cons_of_pos kind, List.filter_cons_of_pos kind, later]
      | false =>
        rw [List.filter_cons_of_neg (ne_true_of_eq_false kind),
          List.filter_cons_of_neg (ne_true_of_eq_false kind), later]
    · have constant : SameConstant i (withDefault value i) :=
        sameConstant_withDefault (framed i List.mem_cons_self) default
      have before := isScalarType_of_default default
      have after := isScalarType_of_default constant.default
      rw [same, List.filter_cons_of_neg (ne_true_of_eq_false before),
        List.filter_cons_of_neg (ne_true_of_eq_false after), later]

end Rewriting

end Sgfx.Vulkan.Spirv
