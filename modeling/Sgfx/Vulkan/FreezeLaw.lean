import Sgfx.Vulkan.FreezeSimulation

/-!
# What freezing means

A frozen module is the module with the supplied values for defaults, frozen without values.  This
holds exactly where decoration groups give no constant another value: freezing only reads the
specialization ids that decorate a constant itself.

## Main Results

* `FreezesTo.keep`, `keep_of_loops` — where both runs emit the same, groups keep the defaults
* `freeze_law_iff`
-/

namespace Sgfx.Vulkan.Spirv

/-! ## From the law to the values -/

section Converse

variable {code : List (List UInt32)} {values : Specialization} {i : List UInt32}
  {emitted : List (List UInt32)} {ids : IdMap UInt32}
  {constants constants' defaults defaults' : IdMap UInt32} {type : List UInt32} {a b : UInt32}
  {types : IdMap (List UInt32)}

theorem opcode_plainConstant (boolean : isBooleanType type = true) :
    opcode (plainConstant type i a) = if a ≠ 0 then 41 else 42 := by
  have small : (if a ≠ 0 then (41 : UInt32) else 42) < 65536 := by
    split <;> decide
  unfold plainConstant
  rw [if_pos boolean]
  exact opcode_emit small (show 3 < 65536 by decide)

/-- Equal constants have equal values. -/
theorem plainConstant_inj (same : plainConstant type i a = plainConstant type i b) :
    (isBooleanType type = true → (a = 0 ↔ b = 0)) ∧ (isBooleanType type = false → a = b) := by
  refine ⟨fun boolean => ?_, fun number => ?_⟩
  · have op := congrArg opcode same
    rw [opcode_plainConstant boolean, opcode_plainConstant boolean] at op
    by_cases first : a = 0
    · refine iff_of_true first (Decidable.not_not.mp fun second => ?_)
      rw [if_neg (not_not.mpr first), if_pos second] at op
      exact absurd op (by decide)
    · refine iff_of_false first fun second => ?_
      rw [if_pos first, if_neg (not_not.mpr second)] at op
      exact absurd op (by decide)
  · unfold plainConstant at same
    rw [if_neg (ne_true_of_eq_false number), if_neg (ne_true_of_eq_false number)] at same
    exact congrArg (fun j : List UInt32 => j.getD 3 0) same

/-- A constant whose default is written over by a value that it has already. -/
theorem withDefault_same (framed : Framed i) (default : hasDefault (opcode i) = true)
    (written : evaluate constants i = .ok b)
    (boolean : opcode i = 48 ∨ opcode i = 49 → (a = 0 ↔ b = 0))
    (number : opcode i = 50 → a = b) : withDefault a i = i := by
  unfold hasDefault at default
  rw [Bool.or_eq_true, Bool.or_eq_true, beq_iff_eq, beq_iff_eq, beq_iff_eq] at default
  unfold evaluate at written
  rcases default with (op | op) | op
  · rw [if_pos op] at written
    obtain rfl := Except.ok.inj written
    have nonzero : a ≠ 0 := mt (boolean (.inl op)).mp (by decide)
    unfold withDefault
    rw [if_pos (.inl op), if_pos nonzero, ← op]
    exact emit_opcode framed
  · rw [if_neg (by rw [op]; decide), if_pos op] at written
    obtain rfl := Except.ok.inj written
    have zero : a = 0 := (boolean (.inr op)).mpr rfl
    unfold withDefault
    rw [if_pos (.inr op), if_neg (not_not.mpr zero), ← op]
    exact emit_opcode framed
  · rw [if_neg (by rw [op]; decide), if_neg (by rw [op]; decide)] at written
    split at written
    · rename_i whole
      have value : i.getD 3 0 = b := Except.ok.inj written
      have first : ¬ (opcode i = 48 ∨ opcode i = 49) := by
        rw [op]
        decide
      have inside : 3 < i.length := by omega
      unfold withDefault
      rw [if_neg first, if_pos op, number op, ← value, List.getD_eq_getElem _ _ inside]
      exact List.set_getElem_self inside
    · rw [if_neg (by rw [op]; exact fun both => absurd both.1 (by decide))] at written
      cases written

/-- What a scalar emits. -/
theorem FreezesTo.of_scalar (h : FreezesTo ids types values constants i emitted constants')
    (op : isScalarSpecialization (opcode i) = true) :
    ∃ type value, types (i.getD 1 0) = some type ∧ isFreezable type ∧
      resolve ids values constants i = .ok value ∧ emitted = [plainConstant type i value] := by
  obtain ⟨special, single⟩ := specialization_of_scalar op
  cases h with
  | specId decoration =>
    exact absurd decoration (ne_true_of_eq_false (isSpecId_of_specialization special))
  | other undecorated plain => exact absurd special (ne_true_of_eq_false plain)
  | composite op length => exact absurd op single
  | scalar op length declared freezable resolved =>
    exact ⟨_, _, declared, freezable, resolved, rfl⟩

/-- Where both runs emit the same, a constant without an id of its own keeps its default. -/
theorem FreezesTo.keep (wf : WellFormed code) (member : i ∈ code) (framed : Framed i)
    (undecorated : specIds code (i.getD 2 0) = none)
    (first : FreezesTo (specIds code) (scalarTypes code) values constants i emitted constants')
    (second : FreezesTo ids (scalarTypes code) [] defaults (rewriteInstruction code values i)
      emitted defaults') : rewriteInstruction code values i = i := by
  rcases rewriteInstruction_cases code values i with
    same | ⟨value, -, default, same⟩
  · exact same
  have kind : SameConstant i (withDefault value i) := sameConstant_withDefault framed default
  obtain ⟨type, v, declared, freezable, resolved, here⟩ :=
    first.of_scalar (scalar_of_default default)
  rw [same] at second ⊢
  obtain ⟨type', w, declared', -, resolved', there⟩ :=
    second.of_scalar (scalar_of_default kind.default)
  rw [kind.type, declared] at declared'
  obtain rfl := Option.some.inj declared'
  rw [here, kind.plainConstant] at there
  obtain ⟨boolean, number⟩ := plainConstant_inj (List.cons.inj there).1
  -- The first run has the default, and the second one the value written over it.
  have written : evaluate constants i = .ok v := by
    rcases resolve_cases resolved with ⟨data, found, -⟩ | ⟨-, written⟩
    · rw [undecorated] at found
      cases found
    · exact written
  obtain ⟨w', written', result⟩ :=
    evaluate_withDefault defaults value wf member framed default declared freezable
  obtain rfl : w = w' := Except.ok.inj ((resolve_nil.symm.trans resolved').symm.trans written')
  refine withDefault_same framed default written (fun op => ?_) fun op => ?_
  · have type : isBooleanType type = true :=
      (isBoolean_of_declared declared).symm.trans (wf.boolean member op)
    exact result.zero.trans (boolean type).symm
  · have type := (wf.number member op).1
    have word := number ((isBoolean_of_declared declared).symm.trans type)
    exact (result.number type).trans word.symm

theorem FreezesTo.length (h : FreezesTo ids types values constants i emitted constants') :
    emitted.length = if isSpecId i = true then 0 else 1 := by
  cases h with
  | specId decoration => rw [if_pos decoration, List.length_nil]
  | other undecorated plain => rw [if_neg (ne_true_of_eq_false undecorated), List.length_singleton]
  | composite op length =>
    have special : isSpecialization (opcode i) = true := op ▸ rfl
    rw [if_neg (ne_true_of_eq_false (isSpecId_of_specialization special)), List.length_singleton]
  | scalar op length declared freezable resolved =>
    have special := (specialization_of_scalar op).1
    rw [if_neg (ne_true_of_eq_false (isSpecId_of_specialization special)), List.length_singleton]

theorem isSpecId_rewrite (framed : Framed i) :
    isSpecId (rewriteInstruction code values i) = isSpecId i := by
  rcases rewriteInstruction_cases code values i with
    same | ⟨value, -, default, same⟩
  · rw [same]
  · have kind : SameConstant i (withDefault value i) := sameConstant_withDefault framed default
    rw [same, isSpecId_of_specialization (specialization_of_scalar (scalar_of_default default)).1,
      isSpecId_of_specialization (specialization_of_scalar (scalar_of_default kind.default)).1]

theorem keep_of_loops (wf : WellFormed code) (framed : ∀ i ∈ code, Framed i)
    {rest frozen : List (List UInt32)} (part : ∀ i ∈ rest, i ∈ code)
    (first : freezeLoop (specIds code) (scalarTypes code) values constants rest = .ok frozen)
    (second : freezeLoop ids (scalarTypes code) [] defaults
      (rest.map (rewriteInstruction code values)) = .ok frozen) :
    ∀ i ∈ rest, specIds code (i.getD 2 0) = none → rewriteInstruction code values i = i := by
  induction rest generalizing constants defaults frozen with
  | nil => exact fun i member => (List.not_mem_nil member).elim
  | cons i rest ih =>
    have member := part i List.mem_cons_self
    obtain ⟨emitted, constants', later, here, hlater, rfl⟩ := freezeLoop_cons.mp first
    obtain ⟨emitted', defaults', later', there, hlater', whole⟩ := freezeLoop_cons.mp second
    have length : emitted.length = emitted'.length := by
      rw [here.length, there.length, isSpecId_rewrite (framed i member)]
    obtain ⟨rfl, rfl⟩ := List.append_inj whole length
    intro j hj undecorated
    rcases List.mem_cons.mp hj with rfl | hj
    · exact here.keep wf member (framed j member) undecorated there
    · exact ih (fun k hk => part k (List.mem_cons_of_mem _ hk)) hlater hlater' j hj undecorated

end Converse

/-! ## The law -/

section Law

variable {words frozen : List UInt32} {code : List (List UInt32)} {values : Specialization}

/-- A frozen module is the header and what the loop emits. -/
theorem freeze_eq_ok (parsed : instructions words = .ok code) :
    freeze words values = .ok frozen ↔
      ∃ code', freezeLoop (specIds code) (scalarTypes code) values .empty code = .ok code' ∧
        frozen = words.take 5 ++ code'.flatten := by
  constructor
  · intro ok
    obtain ⟨code₁, hcode, ok⟩ := except_bind_eq_ok.mp ok
    obtain rfl := Except.ok.inj (parsed.symm.trans hcode)
    obtain ⟨code', hcode', ok⟩ := except_bind_eq_ok.mp ok
    exact ⟨code', hcode', (Except.ok.inj ok).symm⟩
  · rintro ⟨code', hcode', rfl⟩
    refine except_bind_eq_ok.mpr ⟨code, parsed, ?_⟩
    exact except_bind_eq_ok.mpr ⟨code', hcode', rfl⟩

theorem framed_map_rewrite (framed : ∀ i ∈ code, Framed i) :
    ∀ j ∈ code.map (rewriteInstruction code values), Framed j := by
  intro j member
  obtain ⟨i, hi, rfl⟩ := List.mem_map.mp member
  exact framed_rewrite (framed i hi)

theorem instructions_rewrite (parsed : instructions words = .ok code) :
    instructions (rewrite code values words) =
      .ok (code.map (rewriteInstruction code values)) := by
  obtain ⟨header, -, framed⟩ := framed_of_instructions parsed
  exact instructions_append header (framed_map_rewrite framed)

/-- Freezing for some values is freezing with other defaults, exactly where no constant gets another
value from a decoration group. -/
theorem freeze_law_iff (parsed : instructions words = .ok code) (wf : WellFormed code)
    (ok : freeze words values = .ok frozen) :
    FreezeLaw words values code frozen ↔ GroupsKeep code values := by
  obtain ⟨code', first, rfl⟩ := (freeze_eq_ok parsed).mp ok
  obtain ⟨header, -, framed⟩ := framed_of_instructions parsed
  obtain ⟨freezes, plain⟩ := freezeLoop_freezes framed first
  have reparsed : instructions (words.take 5 ++ code'.flatten) = .ok code' :=
    instructions_append header fun j member => (plain j member).framed
  have types := scalarTypes_rewrite framed code values
  have start : (rewrite code values words).take 5 = words.take 5 := List.take_left' header
  constructor
  · intro law
    obtain ⟨code'', second, same⟩ :=
      (freeze_eq_ok (instructions_rewrite parsed)).mp law.rewritten
    rw [types] at second
    have plain' := (freezeLoop_freezes (framed_map_rewrite framed) second).2
    have reparsed' : instructions (words.take 5 ++ code''.flatten) = .ok code'' :=
      instructions_append header fun j member => (plain' j member).framed
    rw [start] at same
    rw [same, reparsed'] at reparsed
    obtain rfl := Except.ok.inj reparsed
    exact groupsKeep_iff.mpr (keep_of_loops wf framed (fun i member => member) first second)
  · intro keep
    refine ⟨List.take_left' header, ⟨code', reparsed, freezes, fun j member => ?_⟩, ?_,
      fun values' => ?_⟩
    · exact ⟨(plain j member).plain, (plain j member).undecorated⟩
    · refine (freeze_eq_ok (instructions_rewrite parsed)).mpr ⟨code', ?_, ?_⟩
      · rw [types]
        exact freezeLoop_simulate wf keep framed (fun i member => member) .empty first
      · rw [start]
    · refine (freeze_eq_ok reparsed).mpr ⟨code', freezeLoop_plain plain, ?_⟩
      rw [List.take_left' header]

/-! ### Two modules -/

/-- A sum of a constant with an id of its own, and whether the sum is the constant. -/
def sumCode : List (List UInt32) :=
  [emit 71 [3, 1, 5003], emit 20 [1], emit 21 [2, 32, 0], emit 50 [2, 3, 0], emit 43 [2, 4, 7],
    emit 52 [2, 5, 128, 3, 4], emit 52 [1, 6, 170, 5, 4]]

/-- The sum is frozen to twelve. -/
def sumFrozen : List (List UInt32) :=
  [emit 20 [1], emit 21 [2, 32, 0], emit 43 [2, 3, 5], emit 43 [2, 4, 7], emit 43 [2, 5, 12],
    emit 42 [1, 6]]

/-- A constant whose id is that of a decoration group. -/
def groupCode : List (List UInt32) :=
  [emit 71 [1, 1, 7], emit 73 [1], emit 74 [1, 3], emit 21 [2, 32, 0], emit 50 [2, 3, 5]]

/-- The constant keeps its default. -/
def groupFrozen : List (List UInt32) :=
  [emit 73 [1], emit 74 [1, 3], emit 21 [2, 32, 0], emit 43 [2, 3, 5]]

/-- A module with the header that tests use. -/
def wordsOf (code : List (List UInt32)) : List UInt32 :=
  [0x07230203, 0x00010000, 0, 9, 0] ++ code.flatten

theorem sum_ok : freeze (wordsOf sumCode) [(5003, [5, 0, 0, 0])] = .ok (wordsOf sumFrozen) := rfl

theorem group_ok : freeze (wordsOf groupCode) [(7, [9, 0, 0, 0])] = .ok (wordsOf groupFrozen) := rfl

theorem sum_parsed : instructions (wordsOf sumCode) = .ok sumCode := rfl

theorem group_parsed : instructions (wordsOf groupCode) = .ok groupCode := rfl

theorem sum_wellFormed : WellFormed sumCode := by
  constructor
  · decide
  · decide
  · decide
  · decide

theorem group_wellFormed : WellFormed groupCode := by
  constructor
  · decide
  · decide
  · decide
  · decide

theorem sum_keeps : GroupsKeep sumCode [(5003, [5, 0, 0, 0])] := by
  have single : ∀ i ∈ sumCode, hasDefault (opcode i) = true →
      specIds sumCode (i.getD 2 0) ≠ none := by
    decide
  intro i member undecorated value _
  exact withDefault_other (Bool.eq_false_iff.mpr fun default => single i member default undecorated)

/-- The sum is frozen as the law says. -/
theorem freeze_law_iff_sum :
    FreezeLaw (wordsOf sumCode) [(5003, [5, 0, 0, 0])] sumCode (wordsOf sumFrozen) :=
  (freeze_law_iff sum_parsed sum_wellFormed sum_ok).mpr sum_keeps

/-- The value supplied for the id of the group is dropped. -/
theorem group_freeze_law_fails :
    instructions (wordsOf groupCode) = .ok groupCode ∧ WellFormed groupCode ∧
      freeze (wordsOf groupCode) [(7, [9, 0, 0, 0])] = .ok (wordsOf groupFrozen) ∧
      ¬ FreezeLaw (wordsOf groupCode) [(7, [9, 0, 0, 0])] groupCode (wordsOf groupFrozen) := by
  refine ⟨group_parsed, group_wellFormed, group_ok, fun law => ?_⟩
  have rewritten : freeze (rewrite groupCode [(7, [9, 0, 0, 0])] (wordsOf groupCode)) [] =
      .ok (wordsOf [emit 73 [1], emit 74 [1, 3], emit 21 [2, 32, 0], emit 43 [2, 3, 9]]) := rfl
  have same := Except.ok.inj (rewritten.symm.trans law.rewritten)
  exact absurd same (by decide)

end Law

end Sgfx.Vulkan.Spirv
