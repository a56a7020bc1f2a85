import Sgfx.Vulkan.Freezing

/-!
# Freezing the rewritten module

Freezing a module for some values and freezing the rewritten module without values run side by
side.  A truth value that is supplied is any word, but a default is one or zero: the two runs agree
on numbers, and on which truth values are zero.

## Main Definitions

* `SameValue`, `Agree`

## Main Results

* `evaluate_agree` — expressions have the same values
* `FreezesTo.simulate`, `freezeLoop_simulate` — the two runs emit the same
-/

namespace Sgfx.Vulkan.Spirv

/-- The values of a constant in the two runs. -/
def SameValue (code : List (List UInt32)) (id a b : UInt32) : Prop :=
  a = b ∨ (isTruthValue code id = true ∧ (a = 0 ↔ b = 0))

/-- The values of all constants. -/
def Agree (code : List (List UInt32)) (constants constants' : IdMap UInt32) : Prop :=
  ∀ id, Option.Rel (SameValue code id) (constants id) (constants' id)

/-- The values of an instruction in the two runs. -/
structure SameResult (code : List (List UInt32)) (i : List UInt32) (a b : UInt32) : Prop where
  zero : a = 0 ↔ b = 0
  number : isBoolean code (i.getD 1 0) = false → a = b

/-- The values of operands. -/
inductive SameOperands (code : List (List UInt32)) :
    List UInt32 → List UInt32 → List UInt32 → Prop
  | nil : SameOperands code [] [] []
  | cons {id a b : UInt32} {ids args args' : List UInt32} (first : SameValue code id a b)
      (later : SameOperands code ids args args') :
      SameOperands code (id :: ids) (a :: args) (b :: args')

/-! ## Agreement -/

section Agreement

variable {code : List (List UInt32)} {id a b : UInt32} {constants constants' : IdMap UInt32}
  {i : List UInt32}

theorem SameValue.zero (h : SameValue code id a b) : a = 0 ↔ b = 0 := by
  rcases h with rfl | ⟨-, zero⟩
  · exact Iff.rfl
  · exact zero

theorem SameValue.number (h : SameValue code id a b) (number : isTruthValue code id = false) :
    a = b := by
  rcases h with same | ⟨truth, -⟩
  · exact same
  · exact Bool.noConfusion (number.symm.trans truth)

theorem SameResult.rfl : SameResult code i a a := ⟨Iff.rfl, fun _ => Eq.refl a⟩

/-- A constant of the module has values as its instruction gives them. -/
theorem SameResult.sameValue (h : SameResult code i a b) (member : i ∈ code)
    (constant : isScalarConstant (opcode i) = true) : SameValue code (i.getD 2 0) a b := by
  cases type : isBoolean code (i.getD 1 0) with
  | false => exact .inl (h.number type)
  | true =>
    refine .inr ⟨List.any_eq_true.mpr ⟨i, member, ?_⟩, h.zero⟩
    rw [constant, type, beq_self_eq_true]
    rfl

theorem Agree.empty : Agree code .empty .empty := fun _ => .none

theorem Agree.insert (h : Agree code constants constants') (same : SameValue code id a b) :
    Agree code (constants.insert id a) (constants'.insert id b) := by
  intro other
  unfold IdMap.insert
  by_cases here : other = id
  · subst here
    rw [Function.update_self, Function.update_self]
    exact .some same
  · rw [Function.update_of_ne here, Function.update_of_ne here]
    exact h other

theorem Agree.recordConstant (h : Agree code constants constants') :
    Agree code (Spirv.recordConstant constants i) (Spirv.recordConstant constants' i) := by
  unfold Spirv.recordConstant
  split
  · exact h.insert (.inl rfl)
  · split
    · exact h.insert (.inl rfl)
    · exact h

/-- The operands have values in both runs. -/
theorem Agree.operands (h : Agree code constants constants') {ids args : List UInt32}
    (found : ids.mapM (fun id => okOr (constants id) VkResult.errorFeatureNotPresent) = .ok args) :
    ∃ args', ids.mapM (fun id => okOr (constants' id) VkResult.errorFeatureNotPresent) = .ok args' ∧
      SameOperands code ids args args' := by
  have related := mapM_forall₂ found
  clear found
  induction related with
  | nil => exact ⟨[], rfl, .nil⟩
  | @cons id a ids args first later ih =>
    obtain ⟨args', found', same⟩ := ih
    have agree := h id
    rw [okOr_eq_ok.mp first] at agree
    cases value : constants' id with
    | none =>
      rw [value] at agree
      cases agree
    | some b =>
      rw [value] at agree
      cases agree with
      | some agree =>
        refine ⟨b :: args', ?_, .cons agree same⟩
        rw [List.mapM_cons, value, found']
        rfl

/-- Operands that are no truth values are equal. -/
theorem SameOperands.eq {ids args args' : List UInt32} (h : SameOperands code ids args args')
    (numbers : (ids.all fun id => !isTruthValue code id) = true) : args = args' := by
  induction h with
  | nil => rfl
  | cons first later ih =>
    rw [List.all_cons, Bool.and_eq_true, Bool.not_eq_true'] at numbers
    rw [first.number numbers.1, ih numbers.2]

end Agreement

/-! ## Expressions -/

section Expressions

variable {code : List (List UInt32)} {i : List UInt32} {op a b c d v : UInt32}

theorem takesNumbers_false (h : takesNumbers op = false) : ∀ n ∈ numberOpcodes, op ≠ n := by
  intro n member same
  subst same
  exact ne_true_of_eq_false h (List.contains_iff_mem.mpr member)

theorem fold1_other (h : takesNumbers op = false) (zero : a = 0 ↔ b = 0) :
    fold1 op a = fold1 op b := by
  have other := takesNumbers_false h
  simp only [numberOpcodes, List.forall_mem_cons] at other
  have same : (a == 0) = (b == 0) := by
    rw [Bool.eq_iff_iff, beq_iff_eq, beq_iff_eq]
    exact zero
  simp only [fold1, other, same, false_or, if_false]

theorem arithmetic_other (h : takesNumbers op = false) : arithmetic op a b = none := by
  have other := takesNumbers_false h
  simp only [numberOpcodes, List.forall_mem_cons] at other
  simp only [arithmetic, other, if_false]

theorem comparison_other (h : takesNumbers op = false) : comparison op a b = none := by
  have other := takesNumbers_false h
  simp only [numberOpcodes, List.forall_mem_cons] at other
  simp only [comparison, other, if_false]

/-- Logical expressions only ask which operands are zero. -/
theorem logical_congr (first : a = 0 ↔ c = 0) (second : b = 0 ↔ d = 0) :
    logical op a b = logical op c d := by
  have left : (a != 0) = (c != 0) := by
    rw [Bool.eq_iff_iff, bne_iff_ne, bne_iff_ne]
    exact not_congr first
  have right : (b != 0) = (d != 0) := by
    rw [Bool.eq_iff_iff, bne_iff_ne, bne_iff_ne]
    exact not_congr second
  unfold logical
  rw [left, right]

/-- `OpSelect` selects the same operand in both runs. -/
theorem select_agree {x y z : UInt32} {condition condition' : UInt32}
    (typed : (isBoolean code (i.getD 1 0) ||
      (i.drop 5).all fun id => !isTruthValue code id) = true) (operands : i.drop 4 = [x, y, z])
    (zero : condition = 0 ↔ condition' = 0) (second : SameValue code y a b)
    (third : SameValue code z c d) :
    SameResult code i (if condition ≠ 0 then a else c) (if condition' ≠ 0 then b else d) := by
  have branches : i.drop 5 = [y, z] := by
    rw [← List.drop_drop (i := 1) (j := 4), operands]
    rfl
  have number (type : isBoolean code (i.getD 1 0) = false) : a = b ∧ c = d := by
    rw [type, Bool.false_or, branches, List.all_cons, List.all_cons, Bool.and_eq_true,
      Bool.and_eq_true, Bool.not_eq_true', Bool.not_eq_true'] at typed
    exact ⟨second.number typed.1, third.number typed.2.1⟩
  by_cases chosen : condition = 0
  · rw [if_neg (not_not.mpr chosen), if_neg (not_not.mpr (zero.mp chosen))]
    exact ⟨third.zero, fun type => (number type).2⟩
  · rw [if_pos chosen, if_pos (mt zero.mpr chosen)]
    exact ⟨second.zero, fun type => (number type).1⟩

/-- An expression has the same value in both runs. -/
theorem fold_agree (typed : operandsTyped code i = true) {args args' : List UInt32}
    (h : SameOperands code (i.drop 4) args args') (value : fold (i.getD 3 0) args = some v) :
    ∃ v', fold (i.getD 3 0) args' = some v' ∧ SameResult code i v v' := by
  unfold operandsTyped at typed
  split at typed
  · obtain rfl := h.eq typed
    exact ⟨v, value, SameResult.rfl⟩
  rename_i other
  have other := Bool.eq_false_iff.mpr other
  cases operands : i.drop 4 with
  | nil =>
    rw [operands] at h
    cases h
    cases value
  | cons x ids =>
    rw [operands] at h
    cases h with
    | cons first h =>
      cases h with
      | nil => exact ⟨v, (fold1_other other first.zero).symm.trans value, SameResult.rfl⟩
      | cons second h =>
        cases h with
        | nil =>
          refine ⟨v, ?_, SameResult.rfl⟩
          rw [fold, arithmetic_other other, comparison_other other] at value ⊢
          rw [← value, logical_congr first.zero second.zero]
        | cons third h =>
          cases h with
          | cons fourth h => cases value
          | nil =>
            rw [fold] at value ⊢
            split at value
            · rename_i select
              rw [if_pos select]
              rw [if_pos (beq_iff_eq.mpr select)] at typed
              obtain rfl := Option.some.inj value
              exact ⟨_, rfl, select_agree typed operands first.zero second third⟩
            · cases value

/-- What an instruction computes, in both runs. -/
theorem evaluate_agree {constants constants' : IdMap UInt32}
    (agree : Agree code constants constants')
    (typed : opcode i = 52 → operandsTyped code i = true) (value : evaluate constants i = .ok v) :
    ∃ v', evaluate constants' i = .ok v' ∧ SameResult code i v v' := by
  unfold evaluate at value ⊢
  split at value
  · rename_i op
    exact ⟨v, by rw [if_pos op]; exact value, SameResult.rfl⟩
  rename_i first
  rw [if_neg first]
  split at value
  · rename_i op
    exact ⟨v, by rw [if_pos op]; exact value, SameResult.rfl⟩
  rename_i second
  rw [if_neg second]
  split at value
  · rename_i op
    exact ⟨v, by rw [if_pos op]; exact value, SameResult.rfl⟩
  rename_i third
  rw [if_neg third]
  split at value
  · rename_i op
    rw [if_pos op]
    obtain ⟨args, found, value⟩ := except_bind_eq_ok.mp value
    obtain ⟨args', found', same⟩ := agree.operands found
    obtain ⟨v', value', result⟩ := fold_agree (typed op.1) same (okOr_eq_ok.mp value)
    exact ⟨v', except_bind_eq_ok.mpr ⟨args', found', okOr_eq_ok.mpr value'⟩, result⟩
  · cases value

end Expressions

/-! ## Supplied values -/

section Supplied

variable {ids : IdMap UInt32} {values : Specialization} {constants : IdMap UInt32}
  {code : List (List UInt32)} {i : List UInt32} {v : UInt32}

/-- Without values, a constant is what its instruction says. -/
theorem resolve_nil : resolve ids [] constants i = evaluate constants i := by
  have none : supplied ids [] (i.getD 2 0) = .ok none := by
    unfold supplied
    cases ids (i.getD 2 0) with
    | none => rfl
    | some id => rfl
  unfold resolve
  rw [none]
  rfl

/-- A constant has a supplied value, or it is what its instruction says. -/
theorem resolve_cases (h : resolve ids values constants i = .ok v) :
    (∃ data, (ids (i.getD 2 0)).bind (lookupData values) = some data ∧ wordOfData data = .ok v) ∨
      ((ids (i.getD 2 0)).bind (lookupData values) = none ∧ evaluate constants i = .ok v) := by
  obtain ⟨given, hgiven, h⟩ := except_bind_eq_ok.mp h
  unfold supplied at hgiven
  cases found : (ids (i.getD 2 0)).bind (lookupData values) with
  | none =>
    rw [found] at hgiven
    cases hgiven
    exact .inr ⟨rfl, h⟩
  | some data =>
    rw [found] at hgiven
    change (wordOfData data).map some = .ok given at hgiven
    cases word : wordOfData data with
    | error e =>
      rw [word] at hgiven
      cases hgiven
    | ok value =>
      rw [word] at hgiven
      cases hgiven
      exact .inl ⟨data, rfl, word.trans h⟩

/-- The supplied value is the default of the rewritten module. -/
theorem rewriteInstruction_supplied {data : List UInt8}
    (found : (specIds code (i.getD 2 0)).bind (lookupData values) = some data)
    (word : wordOfData data = .ok v) : rewriteInstruction code values i = withDefault v i := by
  obtain ⟨id, decorated, data'⟩ := Option.bind_eq_some_iff.mp found
  have direct : specIdOf code (i.getD 2 0) = some id := by
    unfold specIdOf
    rw [decorated]
    rfl
  have value : override code values (i.getD 2 0) = some v := by
    unfold override
    rw [direct, Option.bind_some, data', Option.bind_some, word]
    rfl
  unfold rewriteInstruction
  rw [value]

theorem groupsKeep_iff : GroupsKeep code values ↔
    ∀ i ∈ code, specIds code (i.getD 2 0) = none → rewriteInstruction code values i = i := by
  refine forall₂_congr fun i _ => forall_congr' fun _ => ?_
  unfold rewriteInstruction
  constructor
  · intro keep
    split
    · rename_i value supplied
      exact keep value supplied
    · rfl
  · intro same value supplied
    rw [supplied] at same
    exact same

/-- A constant that gets no value from its own specialization id is not rewritten. -/
theorem rewriteInstruction_kept (keep : GroupsKeep code values) (member : i ∈ code)
    (missing : (specIds code (i.getD 2 0)).bind (lookupData values) = none) :
    rewriteInstruction code values i = i := by
  cases decorated : specIds code (i.getD 2 0) with
  | none => exact groupsKeep_iff.mp keep i member decorated
  | some id =>
    rw [decorated, Option.bind_some] at missing
    have direct : specIdOf code (i.getD 2 0) = some id := by
      unfold specIdOf
      rw [decorated]
      rfl
    have value : override code values (i.getD 2 0) = none := by
      unfold override
      rw [direct, Option.bind_some, missing]
      rfl
    unfold rewriteInstruction
    rw [value]

end Supplied

/-! ## Defaults -/

section Defaults

variable {constants : IdMap UInt32} {i : List UInt32} {v : UInt32}

/-- The default of a truth value. -/
theorem evaluate_boolean (framed : Framed i) (op : opcode i = 48 ∨ opcode i = 49) :
    evaluate constants (withDefault v i) = .ok (if v ≠ 0 then 1 else 0) := by
  unfold withDefault
  rw [if_pos op]
  unfold evaluate
  split
  · rw [opcode_emit (by decide) framed.drop_short, if_pos rfl]
  · rw [opcode_emit (by decide) framed.drop_short, if_neg (by decide), if_pos rfl]

/-- The default of a number. -/
theorem evaluate_number (op : opcode i = 50) (length : i.length = 4) :
    evaluate constants (withDefault v i) = .ok v := by
  have first : ¬ (opcode i = 48 ∨ opcode i = 49) := by
    rw [op]
    decide
  unfold withDefault
  rw [if_neg first, if_pos op]
  unfold evaluate
  rw [opcode_set (by decide), op, if_neg (by decide), if_neg (by decide), List.length_set,
    if_pos ⟨rfl, length⟩, List.getD_eq_getElem?_getD, List.getElem?_set_self (by omega)]
  rfl

end Defaults

/-! ## Well-formed modules -/

section WellFormed

variable {code : List (List UInt32)} {i : List UInt32} {type : List UInt32} {a b : UInt32}

theorem WellFormed.boolean (wf : WellFormed code) (member : i ∈ code)
    (op : opcode i = 48 ∨ opcode i = 49) : isBoolean code (i.getD 1 0) = true := by
  have rule := List.all_eq_true.mp wf.booleans i member
  rw [← beq_iff_eq (α := UInt32), ← beq_iff_eq (α := UInt32), ← Bool.or_eq_true] at op
  rw [op] at rule
  exact rule

theorem WellFormed.number (wf : WellFormed code) (member : i ∈ code) (op : opcode i = 50) :
    isBoolean code (i.getD 1 0) = false ∧
      (isWord code (i.getD 1 0) = true → i.length = 4) := by
  have rule := List.all_eq_true.mp wf.numbers i member
  rw [op, beq_self_eq_true, Bool.not_true, Bool.false_or, Bool.and_eq_true,
    Bool.not_eq_true'] at rule
  refine ⟨rule.1, fun word => ?_⟩
  have length := rule.2
  rw [word, Bool.not_true, Bool.false_or, beq_iff_eq] at length
  exact length

theorem WellFormed.target (wf : WellFormed code) (member : i ∈ code) (op : opcode i = 52) :
    specIds code (i.getD 2 0) = none := by
  have rule := List.all_eq_true.mp wf.targets i member
  rw [op, beq_self_eq_true, Bool.not_true, Bool.false_or, Option.isNone_iff_eq_none] at rule
  exact rule

theorem WellFormed.operand (wf : WellFormed code) (member : i ∈ code) (op : opcode i = 52) :
    operandsTyped code i = true := by
  have rule := List.all_eq_true.mp wf.operands i member
  rw [op, beq_self_eq_true, Bool.not_true, Bool.false_or] at rule
  exact rule

theorem isBoolean_of_declared (declared : scalarTypes code (i.getD 1 0) = some type) :
    isBoolean code (i.getD 1 0) = isBooleanType type := by
  unfold isBoolean
  rw [declared]

/-- A number that can be frozen has one word. -/
theorem WellFormed.length (wf : WellFormed code) (member : i ∈ code) (op : opcode i = 50)
    (declared : scalarTypes code (i.getD 1 0) = some type) (freezable : isFreezable type) :
    i.length = 4 := by
  obtain ⟨number, length⟩ := wf.number member op
  rw [isBoolean_of_declared declared] at number
  refine length ?_
  unfold isWord
  rw [declared]
  rcases freezable with boolean | ⟨-, word⟩
  · exact Bool.noConfusion (number.symm.trans boolean)
  · show (!isBooleanType type && type.getD 2 0 == 32) = true
    rw [number, word]
    rfl

/-- The constants of both runs are the same instruction. -/
theorem SameResult.plainConstant (h : SameResult code i a b)
    (declared : scalarTypes code (i.getD 1 0) = some type) :
    Spirv.plainConstant type i a = Spirv.plainConstant type i b := by
  unfold Spirv.plainConstant
  split
  · by_cases zero : a = 0
    · rw [if_neg (not_not.mpr zero), if_neg (not_not.mpr (h.zero.mp zero))]
    · rw [if_pos zero, if_pos (mt h.zero.mpr zero)]
  · rename_i number
    rw [h.number ((isBoolean_of_declared declared).trans (Bool.eq_false_iff.mpr number))]

theorem SameConstant.plainConstant {j : List UInt32} (h : SameConstant i j) :
    Spirv.plainConstant type j a = Spirv.plainConstant type i a := by
  unfold Spirv.plainConstant
  rw [h.type, h.id]

theorem scalarConstant_of_scalar (h : isScalarSpecialization (opcode i) = true) :
    isScalarConstant (opcode i) = true := by
  unfold isScalarSpecialization at h
  unfold isScalarConstant
  simp only [Bool.or_eq_true, beq_iff_eq] at h ⊢
  tauto

/-- Another default keeps the instructions scalar. -/
theorem scalar_of_default (h : hasDefault (opcode i) = true) :
    isScalarSpecialization (opcode i) = true := by
  unfold hasDefault at h
  unfold isScalarSpecialization
  rw [h]
  rfl

theorem default_or_expression (h : isScalarSpecialization (opcode i) = true) :
    hasDefault (opcode i) = true ∨ opcode i = 52 := by
  unfold isScalarSpecialization at h
  rw [Bool.or_eq_true, beq_iff_eq] at h
  exact h

end WellFormed

/-! ## The two runs -/

section Simulation

variable {code : List (List UInt32)} {values : Specialization} {i : List UInt32}
  {emitted : List (List UInt32)} {ids : IdMap UInt32}
  {constants constants' defaults : IdMap UInt32} {v : UInt32}

/-- The other instructions are not rewritten. -/
theorem rewriteInstruction_other (h : hasDefault (opcode i) = false) :
    rewriteInstruction code values i = i := by
  unfold rewriteInstruction
  split
  · exact withDefault_other h
  · rfl

/-- A supplied value, and the same value as a default. -/
theorem evaluate_withDefault (defaults : IdMap UInt32) (v : UInt32) (wf : WellFormed code)
    (member : i ∈ code) (framed : Framed i) (default : hasDefault (opcode i) = true) {type : List UInt32}
    (declared : scalarTypes code (i.getD 1 0) = some type) (freezable : isFreezable type) :
    ∃ v', evaluate defaults (withDefault v i) = .ok v' ∧ SameResult code i v v' := by
  unfold hasDefault at default
  rw [Bool.or_eq_true, Bool.or_eq_true, beq_iff_eq, beq_iff_eq, beq_iff_eq] at default
  rcases default with op | op
  · refine ⟨_, evaluate_boolean framed op, ?_, fun number => ?_⟩
    · split
      · rename_i nonzero
        exact iff_of_false nonzero (by decide)
      · rename_i zero
        exact iff_of_true (not_not.mp zero) rfl
    · exact Bool.noConfusion (number.symm.trans (wf.boolean member op))
  · exact ⟨v, evaluate_number op (wf.length member op declared freezable), SameResult.rfl⟩

/-- What one instruction emits for the supplied values, its rewritten instruction emits without. -/
theorem FreezesTo.simulate (ids : IdMap UInt32) (wf : WellFormed code)
    (keep : GroupsKeep code values) (member : i ∈ code) (framed : Framed i) (agree : Agree code constants defaults)
    (h : FreezesTo (specIds code) (scalarTypes code) values constants i emitted constants') :
    ∃ defaults', FreezesTo ids (scalarTypes code) [] defaults (rewriteInstruction code values i)
      emitted defaults' ∧ Agree code constants' defaults' := by
  cases h with
  | specId decoration =>
    have same : rewriteInstruction code values i = i := by
      refine rewriteInstruction_other ?_
      unfold isSpecId at decoration
      rw [Bool.and_eq_true, Bool.and_eq_true, beq_iff_eq] at decoration
      rw [decoration.1.1]
      rfl
    rw [same]
    exact ⟨defaults, .specId decoration, agree⟩
  | other undecorated plain =>
    have same : rewriteInstruction code values i = i := by
      refine rewriteInstruction_other (Bool.eq_false_iff.mpr fun default => ?_)
      exact ne_true_of_eq_false plain (specialization_of_scalar (scalar_of_default default)).1
    rw [same]
    exact ⟨_, .other undecorated plain, agree.recordConstant⟩
  | composite op length =>
    have same : rewriteInstruction code values i = i :=
      rewriteInstruction_other (by rw [op]; rfl)
    rw [same]
    exact ⟨defaults, .composite op length, agree⟩
  | @scalar op length type declared freezable value resolved =>
    have constant := scalarConstant_of_scalar op
    rcases resolve_cases resolved with ⟨data, found, word⟩ | ⟨missing, written⟩
    · have default : hasDefault (opcode i) = true := by
        refine (default_or_expression op).resolve_right fun expression => ?_
        rw [wf.target member expression] at found
        cases found
      obtain ⟨v', written, same⟩ :=
        evaluate_withDefault defaults value wf member framed default declared freezable
      have kind : SameConstant i (withDefault value i) := sameConstant_withDefault framed default
      have step : FreezesTo ids (scalarTypes code) [] defaults (withDefault value i) _ _ :=
        .scalar (scalar_of_default kind.default) (kind.length.symm ▸ length)
          (kind.type.symm ▸ declared) freezable (resolve_nil.trans written)
      rw [kind.plainConstant, kind.id] at step
      rw [rewriteInstruction_supplied found word, same.plainConstant declared]
      exact ⟨_, step, agree.insert (same.sameValue member constant)⟩
    · obtain ⟨v', written', same⟩ := evaluate_agree agree (wf.operand member) written
      rw [rewriteInstruction_kept keep member missing, same.plainConstant declared]
      exact ⟨_, .scalar op length declared freezable (resolve_nil.trans written'),
        agree.insert (same.sameValue member constant)⟩

theorem freezeLoop_simulate (wf : WellFormed code) (keep : GroupsKeep code values)
    (framed : ∀ i ∈ code, Framed i) {rest frozen : List (List UInt32)} (part : ∀ i ∈ rest, i ∈ code)
    (agree : Agree code constants defaults)
    (h : freezeLoop (specIds code) (scalarTypes code) values constants rest = .ok frozen) :
    freezeLoop ids (scalarTypes code) [] defaults (rest.map (rewriteInstruction code values)) =
      .ok frozen := by
  induction rest generalizing constants defaults frozen with
  | nil => exact h
  | cons i rest ih =>
    have member := part i List.mem_cons_self
    obtain ⟨emitted, constants', later, first, hlater, rfl⟩ := freezeLoop_cons.mp h
    obtain ⟨defaults', first', agree'⟩ :=
      first.simulate ids wf keep member (framed i member) agree
    have later' := ih (fun j hj => part j (List.mem_cons_of_mem _ hj)) agree' hlater
    exact freezeLoop_cons.mpr ⟨emitted, defaults', later, first', later', rfl⟩

end Simulation

end Sgfx.Vulkan.Spirv
