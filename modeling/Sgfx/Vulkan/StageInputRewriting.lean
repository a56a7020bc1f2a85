import Sgfx.Vulkan.StageInputPacks

/-!
# Lowered stage inputs

What `lower` promises for a module whose inputs are packed, and what its last loop writes for one
instruction.

## Main Definitions

* `WellFormed` — the rules of SPIR-V for ids of variables
* `Rewritten` — what replaces an instruction
* `Lowers` — the module that is returned
* `Lowerable` — the modules for which it is right

## Main Results

* `rewriteInstruction_cases`
* `checked_uses` — instructions of functions only load packed inputs
-/

namespace Sgfx.Vulkan.StageInputs

open Spirv

/-! ## Modules -/

/-- The instructions ahead of the first function. -/
def moduleScope (code : List (List UInt32)) : List (List UInt32) :=
  code.takeWhile fun i => opcode i != 54

/-- The instructions from the first function on. -/
def functionScope (code : List (List UInt32)) : List (List UInt32) :=
  code.dropWhile fun i => opcode i != 54

/-- The operands that may be variables.  Labels, types, functions, truth values and selectors are
none, nor are the literals of vectors and composites. -/
def objectOperands (i : List UInt32) : List UInt32 :=
  if opcode i ∈ [8, 317, 54, 56, 248, 249, 250, 251, 252, 253] then []
  else if opcode i = 59 then i.drop 4
  else if opcode i ∈ [62, 63, 64] then (i.drop 1).take 2
  else if opcode i ∈ [79, 82] then (i.drop 3).take 2
  else if opcode i = 81 then (i.drop 3).take 1
  else if opcode i = 12 then i.drop 5
  else i.drop 1

/-- The rules of SPIR-V for ids of variables. -/
structure WellFormed (g : Dialect) (words : List UInt32) (code : List (List UInt32)) : Prop where
  framed : instructions words = .ok code
  numbered : g.Numbered (words.getD 3 0) code
  /-- Variables and loads have their operands. -/
  long : ∀ i ∈ code, opcode i = 59 ∨ opcode i = 61 → 4 ≤ i.length
  /-- Loads are in functions. -/
  inside : ∀ i ∈ moduleScope code, opcode i ≠ 61
  operands : ∀ i ∈ code, ∀ id ∈ g.usesOf i, IsVariable code id → id ∈ objectOperands i
  /-- The memory operands of loads are scopes. -/
  scopes : ∀ i ∈ code, opcode i = 61 → ∀ id ∈ g.memory (i.drop 4), ¬ IsVariable code id
  /-- Entry points are functions. -/
  entryPoints : ∀ i ∈ code, opcode i = 15 →
    ∃ f ∈ code, opcode f = 54 ∧ 3 ≤ f.length ∧ f.getD 2 0 = i.getD 2 0

/-- The components that an `OpCompositeExtract` takes from a vector, or an `OpVectorShuffle` from it
and itself. -/
def selected (i vector : List UInt32) : Option (List UInt32) :=
  if opcode i = 81 then (vector[(i.getD 4 0).toNat]?).map fun component => [component]
  else (i.drop 5).mapM fun lane => (vector ++ vector)[lane.toNat]?

/-- An instruction that takes lanes of a vector of four components. -/
structure TakesLanes (i : List UInt32) (type result vector : UInt32) (component width : Nat) :
    Prop where
  type : i.getD 1 0 = type
  result : i.getD 2 0 = result
  vector : opcode i = 81 ∧ i.getD 3 0 = vector ∨
    opcode i = 79 ∧ i.getD 3 0 = vector ∧ i.getD 4 0 = vector
  lanes : ∀ values : List UInt32, values.length = 4 →
    selected i values = some ((values.drop component).take width)

/-- What replaces an instruction.  A packed input has no names, decorations and declaration any
more; entry points list its vector, and what was loaded from it is taken from the lanes. -/
inductive Rewritten (g : Dialect) (code : List (List UInt32)) (packs : List Pack)
    (i : List UInt32) : List (List UInt32) → Prop
  | annotation (op : opcode i = 5 ∨ opcode i = 71) (packed : PackedInput code (i.getD 1 0)) :
      Rewritten g code packs i []
  | declaration (op : opcode i = 59) (packed : PackedInput code (i.getD 2 0)) :
      Rewritten g code packs i []
  | entryPoint (start : Nat) (ids : List UInt32) (op : opcode i = 15)
      (interface : interfaceStart i = .ok start)
      (packed : ∃ id ∈ i.drop start, PackedInput code id) (nodup : ids.Nodup)
      (mem : ∀ id, id ∈ ids ↔ id ∈ (i.drop start).map (renamed (packedInputs packs))) :
      Rewritten g code packs i [emit 15 ((i.take start).drop 1 ++ ids)]
  | load (pack : Pack) (input : Input) (loaded : UInt32) (lanes : List UInt32)
      (op : opcode i = 61) (member : pack ∈ packs) (inside : input ∈ pack.members)
      (same : input.id = i.getD 3 0)
      (takes : TakesLanes lanes (i.getD 1 0) (i.getD 2 0) loaded input.component.toNat
        input.width.toNat) :
      Rewritten g code packs i
        [emit 61 ([pack.combined.vec4, loaded, pack.combined.variableId] ++ i.drop 4), lanes]
  | kept (unrelated : ∀ id ∈ g.mentions i, ¬ PackedInput code id) : Rewritten g code packs i [i]

/-- A lowered module: what is left does not mention packed inputs, and all else is in its place. -/
structure Lowered (g : Dialect) (words out : List UInt32) (code code' : List (List UInt32))
    (packs : List Pack) (pieces : List Patch) : Prop where
  framed : instructions out = .ok code'
  header : out.take 5 = (words.take 5).set 3 (out.getD 3 0)
  numbered : g.Numbered (out.getD 3 0) code'
  fresh : ∀ id ∈ g.results code', id ∈ g.results code ∨ words.getD 3 0 ≤ id
  survivors : ∀ i ∈ code', ∀ id ∈ g.mentions i, ¬ PackedInput code id
  whole : code' = pieces.flatMap Patch.all
  inserted : (pieces.flatMap Patch.inserted).Perm
    (packs.flatMap fun pack => pack.combined.annotations ++ pack.combined.declarations)
  bodies : List.Forall₂ (fun i piece => Rewritten g code packs i piece.body) code pieces
  members : ∀ pack ∈ packs, ∀ input ∈ pack.members, MemberOf code input ∧
    Located code input.id pack.combined.location ∧ input.scalar = pack.combined.scalar
  covers : ∀ id, PackedInput code id ↔ ∃ pack ∈ packs, ∃ input ∈ pack.members, input.id = id

/-- The module is lowered. -/
def Lowers (g : Dialect) (words : List UInt32) (code : List (List UInt32)) (out : List UInt32) :
    Prop :=
  ∃ code' packs pieces, Lowered g words out code code' packs pieces

/-- Ahead of the functions, only names, decorations and entry points use packed inputs; and entry
points without packed inputs list no id twice. -/
structure Lowerable (g : Dialect) (code : List (List UInt32)) : Prop where
  references : ∀ i ∈ moduleScope code, opcode i ∉ [5, 71, 15] → ∀ id ∈ g.usesOf i,
    ¬ PackedInput code id
  interfaces : (∃ id, PackedInput code id) → ∀ i ∈ code, opcode i = 15 → ∀ start,
    interfaceStart i = .ok start → (∀ id ∈ i.drop start, ¬ PackedInput code id) →
    (i.drop start).Nodup

/-! ## Packed inputs -/

section Packed

variable {g : Dialect} {words i : List UInt32} {code : List (List UInt32)} {id : UInt32}

theorem PackedInput.isVariable (packed : PackedInput code id) : IsVariable code id := by
  obtain ⟨location, located, _⟩ := packed
  obtain ⟨v, member, op, long, same, _⟩ := located.input
  exact ⟨v, member, op, long, same⟩

/-- Only its declaration defines a packed input. -/
theorem PackedInput.eq_declaration (packed : PackedInput code id)
    (wf : WellFormed g words code) (member : i ∈ code) (defines : g.resultOf i = some id) :
    opcode i = 59 ∧ i.getD 2 0 = id := by
  obtain ⟨v, there, op, long, same⟩ := packed.isVariable
  have result : g.resultOf v = some id :=
    (Dialect.result_value (by rw [op]; decide) (by omega)).1.trans (congrArg some same)
  rw [wf.numbered.eq_of_result member there defines result]
  exact ⟨op, same⟩

theorem PackedInput.lt (packed : PackedInput code id) (wf : WellFormed g words code) :
    id.toNat < (words.getD 3 0).toNat := by
  obtain ⟨v, there, op, long, same⟩ := packed.isVariable
  have result : g.resultOf v = some id :=
    (Dialect.result_value (by rw [op]; decide) (by omega)).1.trans (congrArg some same)
  exact UInt32.lt_iff_toNat_lt.mp (wf.numbered.result_lt there result)

/-- A type is no packed input. -/
theorem not_packed_type (wf : WellFormed g words code) (member : i ∈ code) (low : 19 ≤ opcode i)
    (high : opcode i ≤ 38) (long : 2 ≤ i.length) : ¬ PackedInput code (i.getD 1 0) := by
  intro packed
  have op := (packed.eq_declaration wf member (Dialect.result_type low high long).1).1
  rw [op] at high
  exact absurd high (by decide)

/-- Neither the scalar type nor the type of a packed input is one. -/
theorem MemberOf.not_packed {input : Input} (member : MemberOf code input)
    (wf : WellFormed g words code) :
    (¬ PackedInput code input.scalar ∧ input.scalar ∈ g.results code) ∧
      ¬ PackedInput code input.ty := by
  have scalar : ∀ s ∈ code, opcode s = 21 ∨ opcode s = 22 → 2 ≤ s.length →
      ¬ PackedInput code (s.getD 1 0) ∧ s.getD 1 0 ∈ g.results code := by
    intro s there op long
    have low : 19 ≤ opcode s := by
      rcases op with op | op <;> rw [op] <;> decide
    have high : opcode s ≤ 38 := by
      rcases op with op | op <;> rw [op] <;> decide
    exact ⟨not_packed_type wf there low high long,
      Dialect.mem_results_of_mem there (Dialect.result_type low high long).1⟩
  obtain ⟨s, there, op, long, same⟩ := member.scalar
  have scalar := same ▸ scalar s there op long
  refine ⟨scalar, ?_⟩
  rcases member.lanes with ⟨t, there, op, length, type, _⟩ | ⟨_, same⟩
  · rw [← type]
    exact not_packed_type wf there (by rw [op]; decide) (by rw [op]; decide) (by omega)
  · exact same ▸ scalar.1

end Packed

/-! ## Checks -/

section Checks

variable {g : Dialect} {words i : List UInt32} {code : List (List UInt32)} {id : UInt32}
  {inputs : IdMap (Input × Combined)}

theorem checkUse_eq_ok {s s' : Bool × List UInt32} (h : checkUse inputs s i = .ok s') :
    s'.1 = (s.1 || opcode i == 54) ∧ (s'.1 = true → checkOperands inputs i = .ok ()) := by
  unfold checkUse at h
  obtain ⟨found, _, h⟩ := except_bind_eq_ok.mp h
  obtain ⟨_, _, h⟩ := except_bind_eq_ok.mp h
  obtain ⟨_, _, h⟩ := except_bind_eq_ok.mp h
  dsimp only at h
  split at h
  · obtain ⟨_, checked, h⟩ := except_bind_eq_ok.mp h
    cases h
    exact ⟨rfl, fun _ => checked⟩
  · rename_i outside
    cases h
    exact ⟨rfl, fun inside => absurd inside outside⟩

/-- The instructions from the first function on are checked. -/
theorem checkUses_eq_ok {s : Bool × List UInt32}
    (h : code.foldlM (checkUse inputs) (false, []) = .ok s) :
    ∀ i ∈ functionScope code, checkOperands inputs i = .ok () := by
  refine (foldlM_ok (fun done s => (s.1 = true ↔ functionScope done ≠ []) ∧
    ∀ i ∈ functionScope done, checkOperands inputs i = .ok ())
    ⟨⟨fun h => absurd h Bool.false_ne_true, fun h => absurd rfl h⟩,
      fun _ h => absurd h List.not_mem_nil⟩ ?_ h).2
  rintro done i s s' ⟨inside, checked⟩ turned
  obtain ⟨now, check⟩ := checkUse_eq_ok turned
  have scope : functionScope (done ++ [i]) =
      if functionScope done = [] then [i].dropWhile fun i => opcode i != 54
      else functionScope done ++ [i] := by
    unfold functionScope
    rw [List.dropWhile_append]
    simp only [List.isEmpty_iff]
  rw [scope, now, Bool.or_eq_true, beq_iff_eq]
  by_cases outside : functionScope done = []
  · rw [if_pos outside]
    have before : ¬ s.1 = true := fun h => inside.mp h outside
    by_cases begins : opcode i = 54
    · have kept : ([i].dropWhile fun i => opcode i != 54) = [i] := by
        rw [List.dropWhile_cons, if_neg (by rw [begins]; decide)]
      rw [kept]
      refine ⟨⟨fun _ => List.cons_ne_nil _ _, fun _ => .inr begins⟩, fun j member => ?_⟩
      obtain rfl := List.mem_singleton.mp member
      exact check (by rw [now, begins]; exact Bool.or_true _)
    · have dropped : ([i].dropWhile fun i => opcode i != 54) = [] := by
        rw [List.dropWhile_cons, if_pos (bne_iff_ne.mpr begins)]
        rfl
      rw [dropped]
      exact ⟨⟨fun h => absurd (h.resolve_left before) begins, fun h => absurd rfl h⟩,
        fun _ h => absurd h List.not_mem_nil⟩
  · rw [if_neg outside]
    refine ⟨⟨fun _ => List.append_ne_nil_of_right_ne_nil _ (List.cons_ne_nil _ _),
      fun _ => .inl (inside.mpr outside)⟩, fun j member => ?_⟩
    rcases List.mem_append.mp member with member | member
    · exact checked j member
    · obtain rfl := List.mem_singleton.mp member
      exact check (by rw [now, inside.mpr outside]; rfl)

theorem mem_scopes : i ∈ code ↔ i ∈ moduleScope code ∨ i ∈ functionScope code := by
  rw [← List.mem_append, moduleScope, functionScope, List.takeWhile_append_dropWhile]

theorem objectOperands_subset : objectOperands i ⊆ checkedOperands i := by
  have part : ∀ n, i.drop (n + 1) ⊆ i.drop 1 := fun n => by
    rw [Nat.add_comm, ← List.drop_drop]
    exact List.drop_subset _ _
  -- A short instruction is checked as a whole.
  have short : objectOperands i ⊆ i.drop 1 := by
    unfold objectOperands
    split
    · exact List.nil_subset _
    split
    · exact part 3
    split
    · exact List.take_subset _ _
    split
    · exact List.Subset.trans (List.take_subset _ _) (part 2)
    split
    · exact List.Subset.trans (List.take_subset _ _) (part 2)
    split
    · exact part 4
    · exact List.Subset.refl _
  have either : checkedOperands i = objectOperands i ∨ checkedOperands i = i.drop 1 := by
    unfold objectOperands checkedOperands
    generalize opcode i = op
    by_cases access : op ∈ [62, 63, 64]
    · simp only [List.mem_cons, List.not_mem_nil, or_false] at access
      by_cases long : 3 ≤ i.length
      · rcases access with rfl | rfl | rfl <;> simp [long]
      · rcases access with rfl | rfl | rfl <;> simp [long]
    · split_ifs <;> simp_all
  rcases either with same | whole
  · rw [same]
    exact List.Subset.refl _
  · rw [whole]
    exact short

end Checks

/-! ## One instruction -/

section Instruction

variable {i : List UInt32} {inputs : IdMap (Input × Combined)} {next next' : UInt32}
  {body : List (List UInt32)}

/-- The lanes of an input. -/
theorem extractLanes_takes {input : Input} {result loaded : UInt32}
    (width : 1 ≤ input.width.toNat) (fits : input.component.toNat + input.width.toNat ≤ 4) :
    TakesLanes (extractLanes input result loaded) input.ty result loaded input.component.toNat
      input.width.toNat := by
  obtain ⟨id, ty, scalar, width', component⟩ := input
  dsimp only at width fits
  have components : component ∈ [0, 1, 2, 3] := by
    have bound : component.toNat < 4 := by omega
    have all : ∀ n < 4, UInt32.ofNat n ∈ ([0, 1, 2, 3] : List UInt32) := by decide
    have listed := all component.toNat bound
    rwa [UInt32.ofNat_toNat] at listed
  have widths : width' ∈ [1, 2, 3, 4] := by
    have all : ∀ n < 5, 1 ≤ n → UInt32.ofNat n ∈ ([1, 2, 3, 4] : List UInt32) := by decide
    have listed := all width'.toNat (by omega) width
    rwa [UInt32.ofNat_toNat] at listed
  by_cases one : width' = 1
  · subst one
    have shape : extractLanes ⟨id, ty, scalar, 1, component⟩ result loaded =
        emit 81 [ty, result, loaded, component] := if_pos rfl
    have op : opcode (emit 81 [ty, result, loaded, component]) = 81 :=
      opcode_emit (by decide) (show 4 + 1 < 65536 by decide)
    rw [shape]
    refine ⟨rfl, rfl, .inl ⟨op, rfl⟩, fun values length => ?_⟩
    obtain ⟨a, b, c, d, rest, rfl⟩ := exists_words (Nat.le_of_eq length.symm)
    obtain rfl : rest = [] := List.length_eq_zero_iff.mp (by simpa using length)
    rw [selected, if_pos op]
    simp only [List.mem_cons, List.not_mem_nil, or_false] at components
    rcases components with rfl | rfl | rfl | rfl
    · rfl
    · rfl
    · rfl
    · rfl
  · have shape : extractLanes ⟨id, ty, scalar, width', component⟩ result loaded =
        emit 79 ([ty, result, loaded, loaded] ++
          (List.range width'.toNat).map fun lane => component + UInt32.ofNat lane) := if_neg one
    have op : opcode (extractLanes ⟨id, ty, scalar, width', component⟩ result loaded) = 79 := by
      rw [shape]
      refine opcode_emit (by decide) ?_
      rw [List.length_append, List.length_map, List.length_range]
      show 4 + width'.toNat + 1 < 65536
      omega
    refine ⟨by rw [shape]; rfl, by rw [shape]; rfl, .inr ⟨op, by rw [shape]; rfl,
      by rw [shape]; rfl⟩, fun values length => ?_⟩
    obtain ⟨a, b, c, d, rest, rfl⟩ := exists_words (Nat.le_of_eq length.symm)
    obtain rfl : rest = [] := List.length_eq_zero_iff.mp (by simpa using length)
    rw [selected, if_neg (by rw [op]; decide), shape]
    simp only [List.mem_cons, List.not_mem_nil, or_false] at components widths
    have wide := widths.resolve_left one
    rcases wide with rfl | rfl | rfl
    · rcases components with rfl | rfl | rfl | rfl
      · rfl
      · rfl
      · rfl
      · exact absurd fits (by decide)
    · rcases components with rfl | rfl | rfl | rfl
      · rfl
      · rfl
      · exact absurd fits (by decide)
      · exact absurd fits (by decide)
    · rcases components with rfl | rfl | rfl | rfl
      · rfl
      · exact absurd fits (by decide)
      · exact absurd fits (by decide)
      · exact absurd fits (by decide)

/-- What the five branches write. -/
theorem rewriteInstruction_cases (h : rewriteInstruction inputs next i = .ok (body, next')) :
    ((opcode i = 5 ∨ opcode i = 71) ∧ 2 ≤ i.length ∧ isPacked inputs (i.getD 1 0) = true ∧
      body = [] ∧ next' = next) ∨
    (opcode i = 59 ∧ isPacked inputs (i.getD 2 0) = true ∧ body = [] ∧ next' = next) ∨
    (opcode i = 15 ∧ ∃ start, interfaceStart i = .ok start ∧
      body = [emit 15 ((i.take start).drop 1 ++
        distinctIds ((i.drop start).map (renamed inputs)))] ∧ next' = next) ∨
    (opcode i = 61 ∧ 4 ≤ i.length ∧ ∃ input combined,
      inputs (i.getD 3 0) = some (input, combined) ∧
      body = [emit 61 ([combined.vec4, next, combined.variableId] ++ i.drop 4),
        extractLanes input (i.getD 2 0) next] ∧ next'.toNat = next.toNat + 1) ∨
    (¬ ((opcode i = 5 ∨ opcode i = 71) ∧ 2 ≤ i.length ∧ isPacked inputs (i.getD 1 0) = true) ∧
      ¬ (opcode i = 59 ∧ 3 ≤ i.length ∧ isPacked inputs (i.getD 2 0) = true) ∧
      opcode i ≠ 15 ∧ ¬ (opcode i = 61 ∧ 4 ≤ i.length ∧ isPacked inputs (i.getD 3 0) = true) ∧
      body = [i] ∧ next' = next) := by
  unfold rewriteInstruction at h
  split at h
  · rename_i dropped
    cases h
    exact .inl ⟨dropped.1, dropped.2.1, dropped.2.2, rfl, rfl⟩
  · rename_i plain
    split at h
    · rename_i declaration
      cases h
      exact .inr (.inl ⟨declaration.1, declaration.2.2, rfl, rfl⟩)
    · rename_i undeclared
      split at h
      · rename_i entryPoint
        obtain ⟨start, interface, h⟩ := except_bind_eq_ok.mp h
        cases h
        exact .inr (.inr (.inl ⟨entryPoint, start, interface, rfl, rfl⟩))
      · rename_i other
        split at h
        · rename_i input combined found load
          obtain ⟨⟨loaded, after⟩, new, h⟩ := except_bind_eq_ok.mp h
          cases h
          obtain ⟨rfl, after⟩ := fresh_eq_ok new
          have load := of_decide_eq_true load
          exact .inr (.inr (.inr (.inl ⟨load.1, load.2, input, combined, found, rfl, after⟩)))
        · rename_i unloaded
          cases h
          refine .inr (.inr (.inr (.inr ⟨plain, undeclared, other, ?_, rfl, rfl⟩)))
          rintro ⟨op, long, packed⟩
          obtain ⟨⟨input, combined⟩, found⟩ := Option.isSome_iff_exists.mp packed
          exact unloaded input combined found (decide_eq_true ⟨op, long⟩)

/-- A load in a function has the type of its input, and other instructions do not use inputs. -/
theorem checkOperands_eq_ok (h : checkOperands inputs i = .ok ()) :
    (∃ input combined, opcode i = 61 ∧ inputs (i.getD 3 0) = some (input, combined) ∧
      i.getD 1 0 = input.ty) ∨
    (¬ (opcode i = 61 ∧ 4 ≤ i.length ∧ isPacked inputs (i.getD 3 0) = true) ∧
      ∀ id ∈ checkedOperands i, ¬ isPacked inputs id = true) := by
  unfold checkOperands at h
  split at h
  · rename_i input combined found load
    rw [failIf_eq_ok, not_not] at h
    exact .inl ⟨input, combined, (of_decide_eq_true load).1, found, h⟩
  · rename_i unloaded
    rw [failIf_eq_ok, List.any_eq_true] at h
    refine .inr ⟨?_, fun id member packed => h ⟨id, member, packed⟩⟩
    rintro ⟨op, long, packed⟩
    obtain ⟨⟨input, combined⟩, found⟩ := Option.isSome_iff_exists.mp packed
    exact unloaded input combined found (decide_eq_true ⟨op, long⟩)

theorem interfaceStart_eq_ok {start : Nat} (h : interfaceStart i = .ok start) :
    4 ≤ start ∧ start ≤ i.length ∧ afterString (i.drop 3) = i.drop start ∧
      ∀ ids, afterString ((i.take start).drop 3 ++ ids) = ids := by
  obtain ⟨_, long, h⟩ := except_bind_eq_ok.mp h
  obtain ⟨offset, found, h⟩ := except_bind_eq_ok.mp h
  cases h
  rw [failIf_eq_ok, Nat.not_lt] at long
  rw [okOr_eq_ok] at found
  have general : ∀ (words : List UInt32) (offset : Nat), words.findIdx? endsString = some offset →
      offset + 1 ≤ words.length ∧ afterString words = words.drop (offset + 1) ∧
        ∀ ids, afterString (words.take (offset + 1) ++ ids) = ids := by
    intro words
    induction words with
    | nil =>
      intro offset found
      cases found
    | cons word rest ih =>
      intro offset found
      rw [List.findIdx?_cons] at found
      have step : ∀ tail, afterString (word :: tail) =
          if endsString word then tail else afterString tail := fun _ => rfl
      rw [step]
      split at found
      · rename_i last
        cases found
        rw [if_pos last]
        refine ⟨Nat.succ_le_succ (Nat.zero_le _), rfl, fun ids => ?_⟩
        rw [List.take_succ_cons, List.take_zero, List.singleton_append, step, if_pos last]
      · rename_i more
        rw [if_neg more]
        obtain ⟨later, first, rfl⟩ := Option.map_eq_some_iff.mp found
        obtain ⟨inside, same, again⟩ := ih later first
        refine ⟨Nat.succ_le_succ inside, same, fun ids => ?_⟩
        rw [List.take_succ_cons, List.cons_append, step, if_neg more]
        exact again ids
  obtain ⟨inside, same, again⟩ := general _ offset found
  rw [List.length_drop] at inside
  have sum : 3 + (offset + 1) = offset + 4 := by omega
  refine ⟨by omega, by omega, ?_, fun ids => ?_⟩
  · rw [same, List.drop_drop, sum]
  · have shift : (i.take (offset + 4)).drop 3 = (i.drop 3).take (offset + 1) := by
      rw [List.drop_take]
      rfl
    rw [shift]
    exact again ids

/-- The ids of an interface, each once. -/
theorem distinctIds_spec (ids : List UInt32) :
    (distinctIds ids).Nodup ∧ (∀ id, id ∈ distinctIds ids ↔ id ∈ ids) ∧
      (distinctIds ids).length ≤ ids.length ∧ (ids.Nodup → distinctIds ids = ids) := by
  suffices general : ∀ (ids kept : List UInt32), kept.Nodup →
      let all := ids.foldl (fun kept id => if id ∈ kept then kept else kept ++ [id]) kept
      all.Nodup ∧ (∀ id, id ∈ all ↔ id ∈ kept ∨ id ∈ ids) ∧
        all.length ≤ kept.length + ids.length ∧ ((kept ++ ids).Nodup → all = kept ++ ids) by
    have whole := general ids [] List.nodup_nil
    refine ⟨whole.1, fun id => ?_, ?_, whole.2.2.2⟩
    · exact (whole.2.1 id).trans (or_iff_right List.not_mem_nil)
    · exact Nat.le_trans whole.2.2.1 (Nat.le_of_eq (Nat.zero_add _))
  intro ids
  induction ids with
  | nil =>
    intro kept nodup
    exact ⟨nodup, fun id => (or_iff_left List.not_mem_nil).symm, Nat.le_refl _,
      fun _ => (List.append_nil _).symm⟩
  | cons id rest ih =>
    intro kept nodup
    dsimp only
    rw [List.foldl_cons, List.length_cons]
    by_cases there : id ∈ kept
    · rw [if_pos there]
      obtain ⟨unique, mem, length, same⟩ := ih kept nodup
      refine ⟨unique, fun other => (mem other).trans ?_, by omega, fun distinct => ?_⟩
      · rw [List.mem_cons]
        exact ⟨fun h => h.imp_right .inr, fun h => h.elim .inl fun h =>
          h.elim (fun same => .inl (same ▸ there)) .inr⟩
      · rw [List.nodup_append] at distinct
        exact absurd rfl (distinct.2.2 id there id List.mem_cons_self)
    · rw [if_neg there]
      have longer : (kept ++ [id]).Nodup := by
        rw [List.nodup_append]
        refine ⟨nodup, List.pairwise_singleton _ _, ?_⟩
        rintro other old id' new rfl
        exact there (List.mem_singleton.mp new ▸ old)
      obtain ⟨unique, mem, length, same⟩ := ih (kept ++ [id]) longer
      rw [List.length_append, List.length_singleton] at length
      refine ⟨unique, fun other => (mem other).trans ?_, by omega, fun distinct => ?_⟩
      · rw [List.mem_append, List.mem_singleton, List.mem_cons, or_assoc]
      · rw [List.append_assoc] at same
        exact same distinct

end Instruction

end Sgfx.Vulkan.StageInputs
